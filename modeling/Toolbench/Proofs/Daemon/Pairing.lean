import Mathlib.Data.List.Infix
import Toolbench.Proofs.Daemon.SessionLog

/-!
# Pairing answers with requests

Answers of a daemon do not say which request they belong to. The client pairs them by order, and
this is right because writing a request and putting it into the queue happen under one lock:
`Paired` says that the texts for the writer and the waiting requests of a session are the two
ends of one log. `Paired.step` shows that every action keeps this, and `session_pairs_in_order`
draws the consequences for whole histories.
-/

namespace Toolbench.DaemonClient

open Machine (Event)

/-- The waiting requests that a log leaves behind: those without an answer, in order, each with
the word whether its caller still listens. -/
def waiting (log : List SessionEntry) : List (Waiter Nat) :=
  (unanswered log).map fun request => ⟨request, decide (request ∉ abandoned log)⟩

/-- The log of a generation agrees with the state of the client. -/
structure Paired (generation : Nat) (log : List SessionEntry) (client : DaemonClient) : Prop where
  /-- Sessions belong to generations that have begun. -/
  begun : ∀ session, client.session = some session → session.generation ≤ client.generation
  /-- Nothing was accepted in a generation that has not begun. -/
  unused : client.generation < generation → accepted log = []
  texts : client.texts generation = (accepted log).map fun request => encodeRequest request.2
  numbered : ∀ request ∈ requests log, request < client.nextRequest
  nodup : (requests log).Nodup
  answered_sub : ∀ request ∈ answered log, request ∈ requests log
  abandoned_old : ∀ request ∈ abandoned log, request < client.nextRequest
  queue : ∀ session, client.session = some session → session.generation = generation →
    session.pending.waiters = waiting log
  fifo : Fifo log

namespace Paired

variable {generation : Nat} {log : List SessionEntry} {client next : DaemonClient}

/-- Before the first call of a client its logs are empty. -/
theorem initial (settings : DaemonSettings) (generation : Nat) :
    Paired generation [] (ofSettings settings) where
  begun := by
    intro session h
    exact nomatch h
  unused _ := rfl
  texts := rfl
  numbered := by
    intro request h
    exact nomatch h
  nodup := List.nodup_nil
  answered_sub := by
    intro request h
    exact nomatch h
  abandoned_old := by
    intro request h
    exact nomatch h
  queue := by
    intro session h
    exact nomatch h
  fifo := by
    intro earlier batch told later h
    simp at h

/-- A step that adds nothing to the log keeps the agreement when it gives the writer nothing and
leaves the queue of the session as it is. -/
theorem frame (h : Paired generation log client)
    (hgeneration : client.generation ≤ next.generation)
    (hnext : client.nextRequest ≤ next.nextRequest)
    (htexts : next.texts generation = client.texts generation)
    (hsession : ∀ session, next.session = some session →
      session.generation ≤ next.generation ∧
        (session.generation = generation → session.pending.waiters = waiting log)) :
    Paired generation log next where
  begun session hs := (hsession session hs).1
  unused hlt := h.unused (Nat.lt_of_le_of_lt hgeneration hlt)
  texts := htexts.trans h.texts
  numbered request hr := Nat.lt_of_lt_of_le (h.numbered request hr) hnext
  nodup := h.nodup
  answered_sub := h.answered_sub
  abandoned_old request hr := Nat.lt_of_lt_of_le (h.abandoned_old request hr) hnext
  queue session hs := (hsession session hs).2
  fifo := h.fifo

/-- An entry that accepts no request keeps the agreement when its step gives the writer nothing,
it names only requests that there were, and the queue is the one that the longer log leaves. -/
theorem concat {entry : SessionEntry} (h : Paired generation log client)
    (haccepts : entry.accepted? = none)
    (hgeneration : next.generation = client.generation)
    (hnext : next.nextRequest = client.nextRequest)
    (htexts : next.texts generation = client.texts generation)
    (hanswers : ∀ request ∈ entry.answered, request ∈ requests log)
    (habandons : ∀ request, entry.abandoned? = some request → request < client.nextRequest)
    (hpairs : ∀ batch told, entry = .handled batch told → told = pairing log batch)
    (hsession : ∀ session, next.session = some session →
      session.generation ≤ next.generation ∧
        (session.generation = generation →
          session.pending.waiters = waiting (log ++ [entry]))) :
    Paired generation (log ++ [entry]) next := by
  have haccepted := accepted_concat_of_none log haccepts
  have hrequests := requests_concat_of_none log haccepts
  constructor
  case begun => exact fun session hs => (hsession session hs).1
  case unused => exact fun hlt => haccepted.trans (h.unused (hgeneration ▸ hlt))
  case texts => rw [htexts, haccepted, h.texts]
  case numbered =>
    rw [hrequests, hnext]
    exact h.numbered
  case nodup =>
    rw [hrequests]
    exact h.nodup
  case answered_sub =>
    rw [answered_concat, hrequests]
    intro request hmem
    rcases List.mem_append.1 hmem with hold | hnew
    · exact h.answered_sub request hold
    · exact hanswers request hnew
  case abandoned_old =>
    rw [abandoned_concat, hnext]
    intro request hmem
    rcases List.mem_append.1 hmem with hold | hnew
    · exact h.abandoned_old request hold
    · exact habandons request (Option.mem_toList.1 hnew)
  case queue => exact fun session hs => (hsession session hs).2
  case fifo => exact h.fifo.concat hpairs

/-- What `frame` asks of the session holds of the session that there was. -/
theorem session_kept (h : Paired generation log client)
    (hgeneration : client.generation ≤ next.generation)
    (hsession : next.session = client.session ∨ next.session = none) :
    ∀ session, next.session = some session →
      session.generation ≤ next.generation ∧
        (session.generation = generation → session.pending.waiters = waiting log) := by
  intro session hs
  rcases hsession with hsame | hnone
  · rw [hsame] at hs
    exact ⟨Nat.le_trans (h.begun session hs) hgeneration, h.queue session hs⟩
  · rw [hnone] at hs
    exact nomatch hs

/-- A call to start the daemon. A new session belongs to a generation without a log. -/
theorem start (h : Paired generation log client) (result : Except SystemError Unit) :
    Paired generation log (client.start result).2 := by
  unfold DaemonClient.start
  split
  · exact h
  · dsimp only
    split
    · refine h.frame (Nat.le_succ _) (Nat.le_refl _) (texts_append_fresh rfl generation) ?_
      intro session hs
      cases hs
      refine ⟨Nat.le_refl _, fun hnew => ?_⟩
      have hempty : accepted log = [] := h.unused (by rw [← hnew]; exact Nat.lt_succ_self _)
      simp [waiting, unanswered, requests, hempty, Pending.empty]
    · exact h.frame (Nat.le_succ _) (Nat.le_refl _) (texts_congr rfl generation)
        (h.session_kept (Nat.le_succ _) (.inl rfl))
    · exact h.frame (Nat.le_succ _) (Nat.le_refl _) (texts_congr rfl generation)
        (h.session_kept (Nat.le_succ _) (.inl rfl))

/-- A step in which nothing is requested or answered. -/
theorem of_quiet (h : Paired generation log client) (hquiet : Quiet client next) :
    Paired generation log next :=
  h.frame (Nat.le_of_eq hquiet.generation.symm) (Nat.le_of_eq hquiet.nextRequest.symm)
    (hquiet.texts generation)
    (h.session_kept (Nat.le_of_eq hquiet.generation.symm) hquiet.session)

/-- The number of a call that is made now is in no part of the log. -/
theorem nextRequest_not_mem (h : Paired generation log client) :
    client.nextRequest ∉ requests log ∧ client.nextRequest ∉ answered log ∧
      client.nextRequest ∉ abandoned log := by
  have hrequests : client.nextRequest ∉ requests log := fun hmem =>
    Nat.lt_irrefl _ (h.numbered _ hmem)
  exact ⟨hrequests, fun hmem => hrequests (h.answered_sub _ hmem), fun hmem =>
    Nat.lt_irrefl _ (h.abandoned_old _ hmem)⟩

/-- An accepted request is the last one of the log, and the last one in the queue. -/
theorem accept {session : Session} {link : Link} {fields : List String}
    (h : Paired generation log client) (hsession : client.session = some session)
    (hlink : client.link? session.generation = some link)
    (hsame : session.generation = generation) :
    Paired generation (log ++ [.accepted client.nextRequest fields])
      { client.setLink (link.send client.nextRequest (encodeRequest fields)) with
        nextRequest := client.nextRequest + 1
        session := some
          { session with pending := session.pending.enqueue client.nextRequest } } := by
  obtain ⟨hfresh, hunanswered, hlistens⟩ := h.nextRequest_not_mem
  have hrequests : requests (log ++ [.accepted client.nextRequest fields])
      = requests log ++ [client.nextRequest] := requests_concat log _
  have hanswered : answered (log ++ [.accepted client.nextRequest fields]) = answered log :=
    answered_concat_of_nil log rfl
  have habandoned : abandoned (log ++ [.accepted client.nextRequest fields]) = abandoned log :=
    abandoned_concat_of_none log rfl
  constructor
  case begun =>
    intro other hother
    cases hother
    exact h.begun session hsession
  case unused =>
    intro hlt
    exact absurd (h.begun session hsession) (by rw [hsame]; exact Nat.not_le_of_lt hlt)
  case texts =>
    have hsend := texts_setLink_send hlink client.nextRequest (encodeRequest fields) generation
    rw [if_pos hsame.symm, h.texts] at hsend
    rw [accepted_concat, List.map_append]
    exact hsend
  case numbered =>
    rw [hrequests]
    intro request hmem
    rcases List.mem_append.1 hmem with hold | hnew
    · exact Nat.lt_succ_of_lt (h.numbered request hold)
    · rw [List.mem_singleton.1 hnew]
      exact Nat.lt_succ_self _
  case nodup =>
    rw [hrequests, List.nodup_append]
    refine ⟨h.nodup, List.nodup_singleton _, ?_⟩
    intro request hold other hnew heq
    rw [List.mem_singleton.1 hnew] at heq
    exact hfresh (heq ▸ hold)
  case answered_sub =>
    rw [hanswered, hrequests]
    exact fun request hmem => List.mem_append_left _ (h.answered_sub request hmem)
  case abandoned_old =>
    rw [habandoned]
    exact fun request hmem => Nat.lt_succ_of_lt (h.abandoned_old request hmem)
  case queue =>
    intro other hother _
    cases hother
    -- The number is new, so no part of the log has answered or abandoned it.
    show session.pending.waiters ++ [⟨client.nextRequest, true⟩] = _
    rw [h.queue session hsession hsame, waiting, waiting, unanswered, unanswered, hrequests,
      hanswered, habandoned, List.filter_append, List.map_append]
    simp [hunanswered, hlistens]
  case fifo => exact h.fifo.concat (by intro batch told heq; cases heq)

/-- A request that another session accepts is none of this log's business. -/
theorem accept_other {session : Session} {link : Link} {fields : List String}
    (h : Paired generation log client) (hsession : client.session = some session)
    (hlink : client.link? session.generation = some link)
    (hother : session.generation ≠ generation) :
    Paired generation log
      { client.setLink (link.send client.nextRequest (encodeRequest fields)) with
        nextRequest := client.nextRequest + 1
        session := some
          { session with pending := session.pending.enqueue client.nextRequest } } := by
  have hsend := texts_setLink_send hlink client.nextRequest (encodeRequest fields) generation
  rw [if_neg (Ne.symm hother), List.append_nil] at hsend
  refine h.frame (Nat.le_refl _) (Nat.le_succ _) hsend ?_
  intro found hfound
  cases hfound
  exact ⟨h.begun session hsession, fun hsame => absurd hsame hother⟩

/-- A call to send a request. -/
theorem request (h : Paired generation log client) (fields : List String) :
    Paired generation
      (log ++ (SessionEntry.ofEvent? generation
        ⟨client, .request fields, (client.request fields).1,
          (client.request fields).2⟩).toList)
      (client.request fields).1 := by
  rcases client.request_cases fields with
    ⟨session, link, -, hsession, hlink, heq⟩ | ⟨error, -, heq⟩
  · rw [heq]
    by_cases hsame : session.generation = generation
    · have hentry : SessionEntry.ofEvent? generation
          ⟨client, .request fields, (client.request fields).1, []⟩
            = some (.accepted client.nextRequest fields) := by
        simp [SessionEntry.ofEvent?, inSession, hsession, hsame]
      rw [heq] at hentry
      rw [hentry]
      exact h.accept hsession hlink hsame
    · have hentry : SessionEntry.ofEvent? generation
          ⟨client, .request fields, (client.request fields).1, []⟩ = none := by
        simp [SessionEntry.ofEvent?, inSession, hsession, hsame]
      rw [heq] at hentry
      rw [hentry, Option.toList_none, List.append_nil]
      exact h.accept_other hsession hlink hsame
  · have hentry : SessionEntry.ofEvent? generation
        ⟨client, .request fields, (client.request fields).1,
          [.refused client.nextRequest error]⟩ = none := by
      simp [SessionEntry.ofEvent?]
    rw [heq] at hentry ⊢
    rw [hentry, Option.toList_none, List.append_nil]
    exact h.frame (Nat.le_refl _) (Nat.le_succ _) (texts_congr rfl generation)
      (h.session_kept (Nat.le_refl _) (.inl rfl))

/-- A caller that stops waiting keeps its place in the queue. -/
theorem waiting_abandoned (log : List SessionEntry) (request : Nat) :
    waiting (log ++ [.abandoned request])
      = (waiting log).map fun waiter =>
          if waiter.id = request then { waiter with listening := false } else waiter := by
  have hunanswered : unanswered (log ++ [.abandoned request]) = unanswered log := by
    rw [unanswered, requests_concat_of_none log rfl, answered_concat_of_nil log rfl, unanswered]
  have habandoned : abandoned (log ++ [.abandoned request]) = abandoned log ++ [request] :=
    abandoned_concat log _
  rw [waiting, waiting, hunanswered, habandoned, List.map_map]
  refine List.map_congr_left fun other _ => ?_
  by_cases hsame : other = request <;> simp [hsame]

/-- A caller stops waiting. -/
theorem abandon (h : Paired generation log client) (request : Nat) :
    Paired generation
      (log ++ (SessionEntry.ofEvent? generation
        ⟨client, .abandon request, client.abandon request, []⟩).toList)
      (client.abandon request) := by
  by_cases hold : request < client.nextRequest
  · have hentry : SessionEntry.ofEvent? generation
        ⟨client, .abandon request, client.abandon request, []⟩ = some (.abandoned request) := by
      simp [SessionEntry.ofEvent?, hold]
    rw [hentry, Option.toList_some]
    refine h.concat rfl rfl rfl (texts_congr rfl generation) ?_ ?_ ?_ ?_
    · intro other hmem
      exact nomatch hmem
    · intro other heq
      cases heq
      exact hold
    · intro batch told heq
      cases heq
    · intro session hs
      obtain ⟨earlier, hearlier, rfl⟩ := Option.map_eq_some_iff.1 hs
      refine ⟨h.begun earlier hearlier, fun hsame => ?_⟩
      rw [waiting_abandoned, ← h.queue earlier hearlier hsame]
      rfl
  · have hentry : SessionEntry.ofEvent? generation
        ⟨client, .abandon request, client.abandon request, []⟩ = none := by
      simp [SessionEntry.ofEvent?, hold]
    rw [hentry, Option.toList_none, List.append_nil]
    refine h.frame (Nat.le_refl _) (Nat.le_refl _) (texts_congr rfl generation) ?_
    intro session hs
    obtain ⟨earlier, hearlier, rfl⟩ := Option.map_eq_some_iff.1 hs
    refine ⟨h.begun earlier hearlier, fun hsame => ?_⟩
    -- The number has not been used yet, so nobody in the queue has it.
    have hqueue := h.queue earlier hearlier hsame
    show earlier.pending.waiters.map _ = _
    rw [hqueue]
    refine (List.map_congr_left fun waiter hwaiter => ?_).trans (List.map_id _)
    obtain ⟨other, hother, rfl⟩ := List.mem_map.1 hwaiter
    have hlt := h.numbered other (List.mem_filter.1 hother).1
    exact if_neg fun heq : other = request => hold (heq ▸ hlt)

/-- The request that gets an answer leaves the queue. -/
theorem waiting_handled (batch : Batch) (hnodup : (requests log).Nodup) :
    waiting (log ++ [.handled batch (pairing log batch)]) = (waiting log).tail := by
  have hrequests : requests (log ++ [.handled batch (pairing log batch)]) = requests log :=
    requests_concat_of_none log rfl
  have habandoned : abandoned (log ++ [.handled batch (pairing log batch)]) = abandoned log :=
    abandoned_concat_of_none log rfl
  -- What has no answer afterwards had none before and is not the oldest of those.
  have hunanswered : unanswered (log ++ [.handled batch (pairing log batch)])
      = (unanswered log).filter (· ∉ (unanswered log).take 1) := by
    conv_rhs => arg 2; rw [unanswered]
    rw [unanswered, hrequests, answered_concat, answered_handled_pairing, List.filter_filter]
    refine List.filter_congr fun request _ => ?_
    simp [Bool.and_comm]
  have htail : (unanswered log).filter (· ∉ (unanswered log).take 1) = (unanswered log).tail := by
    have hunique : (unanswered log).Nodup := hnodup.filter _
    cases hrest : unanswered log with
    | nil => rfl
    | cons request rest =>
        rw [hrest, List.nodup_cons] at hunique
        have hkeep : rest.filter (· ∉ [request]) = rest := by
          refine List.filter_eq_self.2 fun other hother => ?_
          simpa using fun heq : other = request => hunique.1 (heq ▸ hother)
        simpa using hkeep
  rw [waiting, waiting, hunanswered, htail, habandoned, List.map_tail]

/-- An answer of the session's process is given to the oldest waiting request. -/
theorem handle {session : Session} (h : Paired generation log client)
    (hsession : client.session = some session) (hsame : session.generation = generation)
    (batch : Batch) :
    Paired generation (log ++ [.handled batch (client.resolve generation batch).2])
      (client.resolve generation batch).1 := by
  have hqueue := h.queue session hsession hsame
  have htold : (client.resolve generation batch).2 = pairing log batch := by
    rw [← hsame, resolve_eq hsession, hqueue, pairing, waiting]
    cases unanswered log <;> rfl
  rw [htold, ← hsame, resolve_eq hsession, hsame]
  refine h.concat rfl rfl rfl (texts_congr rfl generation) ?_ ?_ ?_ ?_
  · rw [answered_handled_pairing]
    exact fun request hmem => (List.mem_filter.1 (List.mem_of_mem_take hmem)).1
  · intro request heq
    cases heq
  · intro other told heq
    cases heq
    rfl
  · intro other hother
    cases hother
    refine ⟨hsame ▸ h.begun session hsession, fun _ => ?_⟩
    rw [waiting_handled batch h.nodup, ← hqueue]

/-- An answer of a process whose session is not that of the log. -/
theorem resolve_other {other : Nat} (h : Paired generation log client)
    (hother : ∀ session, client.session = some session →
      session.generation = other → session.generation ≠ generation) (batch : Batch) :
    Paired generation log (client.resolve other batch).1 := by
  by_cases hfound : ∃ session, client.session = some session ∧ session.generation = other
  · obtain ⟨session, hsession, rfl⟩ := hfound
    rw [resolve_eq hsession]
    refine h.frame (Nat.le_refl _) (Nat.le_refl _) (texts_congr rfl generation) ?_
    intro found heq
    cases heq
    exact ⟨h.begun session hsession, fun hsame => absurd hsame (hother session hsession rfl)⟩
  · rw [resolve_of_not_inSession fun session hsession heq => hfound ⟨session, hsession, heq⟩]
    exact h

/-- What an action of a link is in the session of a generation. -/
theorem ofEvent?_link {other : Nat} {action : Link.Action} {told : List Output} {link changed : Link}
    {notice : Option Link.Notice} (hlink : client.link? other = some link)
    (haction : link.step? action = some (changed, notice)) :
    SessionEntry.ofEvent? generation ⟨client, .link other action, next, told⟩ =
      if other = generation ∧ client.inSession generation = true then
        (notice.bind Link.Notice.batch?).map (.handled · told)
      else none := by
  simp only [SessionEntry.ofEvent?]
  split
  · rename_i hin
    obtain ⟨rfl, -⟩ := hin
    rw [batch?, hlink, Option.bind_some, haction, Option.bind_some]
  · rfl

/-- A party of a link acts. -/
theorem link {other : Nat} {action : Link.Action} {told : List Output}
    (h : Paired generation log client)
    (hstep : client.step? (.link other action) = some (next, told)) :
    Paired generation
      (log ++ (SessionEntry.ofEvent? generation ⟨client, .link other action, next, told⟩).toList)
      next := by
  simp only [step?, Option.bind_eq_bind, Option.bind_eq_some_iff, Option.pure_def,
    Option.some.injEq] at hstep
  obtain ⟨link, hlink, ⟨changed, notice⟩, haction, heq⟩ := hstep
  have hset := h.of_quiet (quiet_setLink hlink haction)
  rw [ofEvent?_link hlink haction]
  cases notice with
  | none =>
      cases heq
      simpa using hset
  | some notice =>
      cases notice with
      | exited waited =>
          have hexit := hset.of_quiet (quiet_onExit _ other waited)
          rw [show (client.setLink changed).onExit other waited = (next, told) from heq] at hexit
          simpa [Link.Notice.batch?] using hexit
      | answered batch =>
          -- Only answers that come while the generation has the session are in its log.
          have hresolve : (client.setLink changed).resolve other batch = (next, told) := heq
          split
          · rename_i hin
            obtain ⟨rfl, hin⟩ := hin
            obtain ⟨session, hsession, hsame⟩ := (Option.any_eq_true _ _).1 hin
            have hhandle := hset.handle hsession (by simpa using hsame) batch
            rw [hresolve] at hhandle
            exact hhandle
          · rename_i hout
            have hother : ∀ session, (client.setLink changed).session = some session →
                session.generation = other → session.generation ≠ generation := by
              intro session hsession hsame hgeneration
              refine hout ⟨hsame.symm.trans hgeneration, ?_⟩
              have hsession' : client.session = some session := hsession
              simp [inSession, hsession', hgeneration]
            have hkept := hset.resolve_other hother batch
            rw [hresolve] at hkept
            simpa using hkept

/-- Every action keeps the agreement between the log and the state. -/
theorem step {action : Action} {told : List Output} (h : Paired generation log client)
    (hstep : client.step? action = some (next, told)) :
    Paired generation
      (log ++ (SessionEntry.ofEvent? generation ⟨client, action, next, told⟩).toList) next := by
  cases action with
  | start result =>
      simp only [step?, Option.some.injEq, Prod.mk.injEq] at hstep
      obtain ⟨rfl, -⟩ := hstep
      simpa [SessionEntry.ofEvent?] using h.start result
  | stop =>
      cases hstep
      simpa [SessionEntry.ofEvent?] using h.of_quiet (quiet_stop client)
  | dismiss index | stopReturns index =>
      simpa [SessionEntry.ofEvent?] using h.of_quiet (quiet_stopStep? hstep)
  | request fields =>
      have hrequest := h.request fields
      rw [Option.some.inj hstep] at hrequest
      exact hrequest
  | abandon request =>
      cases hstep
      exact h.abandon request
  | timer fired =>
      simp only [step?, Option.ite_none_right_eq_some, Option.some.injEq, Prod.mk.injEq] at hstep
      obtain ⟨-, rfl, -⟩ := hstep
      simpa [SessionEntry.ofEvent?] using h.of_quiet (quiet_fire client fired)
  | restart result =>
      simp only [step?, Option.ite_none_right_eq_some, Option.some.injEq, Prod.mk.injEq] at hstep
      obtain ⟨-, rfl, -⟩ := hstep
      have hquiet : Quiet client { client with restarting := client.restarting - 1 } :=
        ⟨.inl rfl, rfl, rfl, texts_congr rfl⟩
      simpa [SessionEntry.ofEvent?] using (h.of_quiet hquiet).start result
  | link other action => exact h.link hstep

/-- After every history the log of each generation agrees with the state. -/
theorem of_run {settings : DaemonSettings} {actions : List Action} {final : DaemonClient}
    {told : List Output} (hrun : (ofSettings settings).run? actions = some (final, told))
    (generation : Nat) :
    Paired generation (sessionLog generation (ofSettings settings) actions) final := by
  exact Machine.run?_trace_invariant step?
    (P := fun past client =>
      Paired generation (past.filterMap (SessionEntry.ofEvent? generation)) client)
    (fun past client action next told h hstep => by
      rw [List.filterMap_append]
      have hnext := h.step hstep
      cases hentry : SessionEntry.ofEvent? generation ⟨client, action, next, told⟩ <;>
        simpa [hentry] using hnext)
    hrun (initial settings generation)

/-- When there never were more answers than requests, an answer goes to the request whose place
among the requests is that of the answer among the answers. -/
theorem handled_at {earlier later : List SessionEntry} {batch : Batch} {told : List Output}
    (h : Paired generation (earlier ++ .handled batch told :: later) client)
    (hahead : NeverAhead (earlier ++ .handled batch told :: later)) :
    ∃ request fields, (accepted (earlier ++ .handled batch told :: later))[(handled earlier).length]?
        = some (request, fields) ∧
      told = [.answered ⟨request, batch, decide (request ∉ abandoned earlier)⟩] := by
  have hnodup : (requests earlier).Nodup := by
    have hall := h.nodup
    rw [requests, accepted, List.filterMap_append, List.map_append] at hall
    exact (List.nodup_append.1 hall).1
  -- The answer itself is counted too, so before it there was a request more than answers.
  have hlt : (handled earlier).length < (accepted earlier).length := by
    have hnext := hahead (earlier ++ [.handled batch told]) ⟨later, by simp⟩
    rw [handled_concat, accepted_concat, List.length_append, List.length_append] at hnext
    exact hnext
  obtain ⟨request, fields, hget, hpairing⟩ :=
    pairing_eq_of_neverAhead h.fifo.left hahead.left hnodup hlt batch
  refine ⟨request, fields, ?_, (h.fifo earlier batch told later rfl).trans hpairing⟩
  rw [accepted, List.filterMap_append]
  exact (List.getElem?_append_left hlt).trans hget

end Paired

/-- Answers are paired with requests in order, whatever calls, processes and timers do in between.
In every history and for every generation: the writer was given one text for each accepted
request, in order; each answer that was handled went to the request that was the oldest one
without an answer. If at no time more answers had come than requests were accepted, the answer at
each place is for the request at that place, and it is lost only on a caller that had stopped
waiting. A call that is refused changes nothing but the number of the next call. -/
theorem session_pairs_in_order {settings : DaemonSettings} {actions : List Action}
    {client : DaemonClient} {outputs : List Output}
    (hrun : (ofSettings settings).run? actions = some (client, outputs)) (generation : Nat) :
    let log := sessionLog generation (ofSettings settings) actions
    client.texts generation = (accepted log).map (fun request => encodeRequest request.2) ∧
    Fifo log ∧
    (NeverAhead log → ∀ earlier batch told later,
      log = earlier ++ .handled batch told :: later →
        ∃ request fields, (accepted log)[(handled earlier).length]? = some (request, fields) ∧
          told = [.answered ⟨request, batch, decide (request ∉ abandoned earlier)⟩]) ∧
    ∀ fields, (client.request fields).2 = [] ∨
      ∃ error, (error = .notRunning ∨ error = .write) ∧
        client.request fields =
          ({ client with nextRequest := client.nextRequest + 1 },
            [.refused client.nextRequest error]) := by
  intro log
  have hpaired : Paired generation log client := .of_run hrun generation
  refine ⟨hpaired.texts, hpaired.fifo, ?_, ?_⟩
  · intro hahead earlier batch told later hlog
    rw [hlog] at hpaired hahead ⊢
    exact hpaired.handled_at hahead
  · intro fields
    rcases client.request_cases fields with ⟨session, link, -, -, -, heq⟩ | hrefused
    · exact .inl (congrArg Prod.snd heq)
    · exact .inr hrefused

/-- A session of two requests in which the first caller stops waiting before the answers come,
both in one chunk: the second answer is for the second request. -/
theorem session_pairs_in_order_two_requests :
    let actions : List Action :=
      [.start (.ok ()), .request ["a"], .request ["b"], .abandon 0,
        .link 1 (.produce [69, 78, 68, 10, 120, 10, 69, 78, 68, 10]), .link 1 (.read 10),
        .link 1 .push, .link 1 .push, .link 1 .push]
    let log := sessionLog 1 (ofSettings .standard) actions
    ((ofSettings .standard).run? actions).isSome = true ∧ NeverAhead log ∧
      ∃ earlier told request fields, log = earlier ++ [.handled ["x"] told] ∧
        (accepted log)[1]? = some (request, fields) ∧
        told = [.answered ⟨request, ["x"], decide (request ∉ abandoned earlier)⟩] := by
  intro actions log
  have hahead : NeverAhead log := fun earlier h =>
    (by decide : ∀ earlier ∈ log.inits, (handled earlier).length ≤ (accepted earlier).length)
      earlier ((List.mem_inits _ _).2 h)
  have hlog : log = log.take 4 ++ [.handled ["x"] [.answered ⟨1, ["x"], true⟩]] := rfl
  obtain ⟨-, -, hpaired, -⟩ := session_pairs_in_order
    (rfl : (ofSettings .standard).run? actions = some (_, _)) 1
  obtain ⟨request, fields, hget, htold⟩ := hpaired hahead _ _ _ _ hlog
  exact ⟨rfl, hahead, _, _, request, fields, hlog, hget, htold⟩

end Toolbench.DaemonClient
