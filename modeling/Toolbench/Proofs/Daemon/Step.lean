import Toolbench.Proofs.Daemon.SessionLog

/-!
# The steps of a client as rules

`Step client action next told` has one rule for each thing that can happen to a client, with what
must hold before it and the whole state after it, and `Step.of_step?` says that whatever a client
does is one of them. `attempt` is what an attempt to start a process leaves, and two lemmas on
links say which of their actions the client hears of.
-/

namespace Toolbench

namespace Link

variable {link next : Link} {action : Action}

/-- An answer is complete when the reader goes on to a line that ends it. The answer is what was
put together before, and the next one begins empty. -/
theorem eq_push_of_answered {batch : Batch}
    (h : link.step? action = some (next, some (.answered batch))) :
    action = .push ∧ ∃ line ready, link.ready = line :: ready ∧ endsBatch line = true ∧
      batch = link.batches.linesReversed.reverse ∧
      next = { link with ready, batches := .empty } := by
  cases action with
  | push =>
      simp only [step?, readerStep?] at h
      split at h
      · cases h
      · rename_i line ready hready
        refine ⟨rfl, line, ready, hready, ?_⟩
        by_cases hends : endsBatch line = true
        · simp only [BatchBuffer.push, hends, if_true] at h
          cases h
          exact ⟨hends, rfl, rfl⟩
        · simp [BatchBuffer.push, hends] at h
  | read | readEnd | readFails => simp [step?, readerStep?] at h
  | notice | observeEnd =>
      simp only [step?, watchStep?] at h
      split at h <;> simp at h
  | graceOver | report =>
      simp only [step?, watchStep?] at h
      split at h
      · cases h
      · cases h
  | loseTrack => simp [step?, watchStep?] at h
  | _ => simp [step?] at h

/-- The end of a process is reported when the watch knows of it. -/
theorem eq_report_of_exited {waited : Job.Waited}
    (h : link.step? action = some (next, some (.exited waited))) :
    action = .report ∧ link.watch = .ended waited ∧ next = { link with watch := .reported } := by
  cases action with
  | report =>
      simp only [step?, watchStep?] at h
      split at h
      · rename_i ended hwatch
        cases h
        exact ⟨rfl, hwatch, rfl⟩
      · cases h
  | push =>
      simp only [step?, readerStep?] at h
      split at h
      · cases h
      · simp at h
  | read | readEnd | readFails => simp [step?, readerStep?] at h
  | notice | observeEnd =>
      simp only [step?, watchStep?] at h
      split at h <;> simp at h
  | graceOver =>
      simp only [step?, watchStep?] at h
      split at h
      · cases h
      · cases h
  | loseTrack => simp [step?, watchStep?] at h
  | _ => simp [step?] at h

/-- The watch reports what it knows of the end of its process. -/
theorem step?_report {waited : Job.Waited} (h : link.watch = .ended waited) :
    link.step? .report = some ({ link with watch := .reported }, some (.exited waited)) := by
  simp only [step?, watchStep?, h]

end Link

namespace DaemonClient

variable {client next : DaemonClient} {action : Action} {told : List Output}

/-- A call to start the daemon has nothing to do. -/
def IsUp (client : DaemonClient) : Prop :=
  client.status = .starting ∨ client.status = .running

/-- Where the daemon stands after an attempt to start a process. -/
def Status.after : Except SystemError Unit → Status
  | .ok () => .running
  | .error .notFound => .stopped
  | .error _ => .crashed

/-- What an attempt to start a process leaves. The attempt begins a new generation, whatever comes
of it. -/
def attempt (client : DaemonClient) (result : Except SystemError Unit) : DaemonClient :=
  match result with
  | .ok () =>
      { client with
        status := .running
        generation := client.generation + 1
        session := some ⟨client.generation + 1, .empty⟩
        links := client.links ++ [.fresh (client.generation + 1)] }
  | .error .notFound => { client with status := .stopped, generation := client.generation + 1 }
  | .error _ =>
      { client with
        status := .crashed
        generation := client.generation + 1
        timers := client.timers ++ [client.generation + 1] }

/-- An attempt succeeds, finds no program, or fails in some other way. -/
theorem attempt_cases (client : DaemonClient) (result : Except SystemError Unit) :
    (result = .ok () ∧ Status.after result = .running ∧
      client.attempt result =
        { client with
          status := .running
          generation := client.generation + 1
          session := some ⟨client.generation + 1, .empty⟩
          links := client.links ++ [.fresh (client.generation + 1)] }) ∨
    (result = .error .notFound ∧ Status.after result = .stopped ∧
      client.attempt result =
        { client with status := .stopped, generation := client.generation + 1 }) ∨
    (result ≠ .ok () ∧ Status.after result = .crashed ∧
      client.attempt result =
        { client with
          status := .crashed
          generation := client.generation + 1
          timers := client.timers ++ [client.generation + 1] }) := by
  cases result with
  | ok => exact .inl ⟨rfl, rfl, rfl⟩
  | error cause =>
      cases cause with
      | notFound => exact .inr (.inl ⟨rfl, rfl, rfl⟩)
      | _ => exact .inr (.inr ⟨nofun, rfl, rfl⟩)

@[simp] theorem attempt_status (client : DaemonClient) (result : Except SystemError Unit) :
    (client.attempt result).status = .after result := by
  rcases client.attempt_cases result with ⟨-, hafter, heq⟩ | ⟨-, hafter, heq⟩ | ⟨-, hafter, heq⟩
  all_goals rw [heq, hafter]

@[simp] theorem attempt_generation (client : DaemonClient) (result : Except SystemError Unit) :
    (client.attempt result).generation = client.generation + 1 := by
  rcases client.attempt_cases result with ⟨-, -, heq⟩ | ⟨-, -, heq⟩ | ⟨-, -, heq⟩
  all_goals rw [heq]

@[simp] theorem attempt_nextRequest (client : DaemonClient) (result : Except SystemError Unit) :
    (client.attempt result).nextRequest = client.nextRequest := by
  rcases client.attempt_cases result with ⟨-, -, heq⟩ | ⟨-, -, heq⟩ | ⟨-, -, heq⟩
  all_goals rw [heq]

theorem start_of_isUp (h : client.IsUp) (result : Except SystemError Unit) :
    client.start result = (.ok (), client) :=
  if_pos h

theorem start_of_not_isUp (h : ¬ client.IsUp) (result : Except SystemError Unit) :
    (client.start result).2 = client.attempt result := by
  have hdown : ¬ (client.status = .starting ∨ client.status = .running) := h
  unfold start
  rw [if_neg hdown]
  cases result with
  | ok => rfl
  | error cause => cases cause <;> rfl

/-- A client that is not in session with a process has no session of that generation. -/
theorem not_inSession_iff {generation : Nat} :
    client.inSession generation = false ↔
      ∀ session, client.session = some session → session.generation ≠ generation := by
  cases hsession : client.session with
  | none => simp [inSession, hsession]
  | some session => simp [inSession, hsession]

/-- The session is that of the generation, or the client has none for it. -/
theorem inSession_cases (client : DaemonClient) (generation : Nat) :
    (∃ session, client.session = some session ∧ session.generation = generation) ∨
      client.inSession generation = false := by
  by_cases h : ∃ session, client.session = some session ∧ session.generation = generation
  · exact .inl h
  · exact .inr (not_inSession_iff.2 fun session hsession hsame => h ⟨session, hsession, hsame⟩)

/-- The process of the session has ended well. -/
theorem onExit_clean {session : Session} (hsession : client.session = some session) :
    client.onExit session.generation (.ok (some 0)) =
      ({ client.dismissLink session.generation with status := .stopped, session := none },
        session.drained) := by
  simp only [onExit, hsession, if_true]

/-- The process of the session has crashed, or the watch has lost it. -/
theorem onExit_crash {session : Session} {waited : Job.Waited}
    (hsession : client.session = some session) (hwaited : waited ≠ .ok (some 0)) :
    client.onExit session.generation waited =
      ({ client.dismissLink session.generation with
          status := .crashed
          session := none
          timers := client.timers ++ [session.generation] }, session.drained) := by
  simp only [onExit, hsession, if_true]
  rfl

/-- The end of a process without a session is of no concern. -/
theorem onExit_of_not_inSession {generation : Nat}
    (h : ∀ session, client.session = some session → session.generation ≠ generation)
    (waited : Job.Waited) : client.onExit generation waited = (client, []) := by
  unfold onExit
  split
  · rfl
  · rename_i session hsession
    exact if_neg (h session hsession)

/-! ## The rules -/

/-- One rule for each thing that can happen to a client. -/
inductive Step (client : DaemonClient) : Action → DaemonClient → List Output → Prop where
  | startUp (result : Except SystemError Unit) (hup : client.IsUp) :
      Step client (.start result) client [.started (.ok ())]
  | start (result : Except SystemError Unit) (hdown : ¬ client.IsUp) :
      Step client (.start result) (client.attempt result) [.started (client.start result).1]
  | stopNothing (hsession : client.session = none) :
      Step client .stop
        { client with
          status := .stopped
          session := none
          stops := client.stops ++ [.returned] } []
  | stop (session : Session) (hsession : client.session = some session) :
      Step client .stop
        { client with
          status := .stopped
          session := none
          stops := client.stops ++ [.taken session] } []
  | dismiss (index : Nat) (session : Session) (hpoint : client.stops[index]? = some (.taken session)) :
      Step client (.dismiss index)
        ((client.dismissLink session.generation).setStop index (.awaiting session.generation))
        session.drained
  | stopReturns (index generation : Nat) (link : Link)
      (hpoint : client.stops[index]? = some (.awaiting generation))
      (hlink : client.link? generation = some link) (hreported : link.isReported = true) :
      Step client (.stopReturns index) (client.setStop index .returned) []
  | accept (fields : List String) (session : Session) (link : Link)
      (hstatus : client.status = .running) (hsession : client.session = some session)
      (hlink : client.link? session.generation = some link) :
      Step client (.request fields)
        { client.setLink (link.send client.nextRequest (encodeRequest fields)) with
          nextRequest := client.nextRequest + 1
          session := some
            { session with pending := session.pending.enqueue client.nextRequest } } []
  | refuse (fields : List String) (error : DaemonError) :
      Step client (.request fields) { client with nextRequest := client.nextRequest + 1 }
        [.refused client.nextRequest error]
  | abandon (request : Nat) : Step client (.abandon request) (client.abandon request) []
  /-- The timer of the crash that the daemon still has to be started after. -/
  | timerDue (generation : Nat) (htimer : generation ∈ client.timers)
      (hstatus : client.status = .crashed) (hcurrent : client.generation = generation) :
      Step client (.timer generation)
        { client with
          timers := client.timers.erase generation
          restarting := client.restarting + 1 } []
  | timerLate (generation : Nat) (htimer : generation ∈ client.timers)
      (hlate : ¬ (client.status = .crashed ∧ client.generation = generation)) :
      Step client (.timer generation)
        { client with timers := client.timers.erase generation } []
  | restartUp (result : Except SystemError Unit) (hdue : 0 < client.restarting)
      (hup : client.IsUp) :
      Step client (.restart result) { client with restarting := client.restarting - 1 } []
  | restart (result : Except SystemError Unit) (hdue : 0 < client.restarting)
      (hdown : ¬ client.IsUp) :
      Step client (.restart result)
        ({ client with restarting := client.restarting - 1 }.attempt result) []
  /-- The client hears nothing of the link, or has no session for its process. -/
  | link (generation : Nat) (action : Link.Action) (link changed : Link)
      (notice : Option Link.Notice) (hlink : client.link? generation = some link)
      (hstep : link.step? action = some (changed, notice))
      (hquiet : notice = none ∨ client.inSession generation = false) :
      Step client (.link generation action) (client.setLink changed) []
  | answer (generation : Nat) (link changed : Link) (batch : Batch) (session : Session)
      (waiter : Waiter Nat) (waiters : List (Waiter Nat))
      (hlink : client.link? generation = some link)
      (hstep : link.step? .push = some (changed, some (.answered batch)))
      (hsession : client.session = some session) (hsame : session.generation = generation)
      (hqueue : session.pending.waiters = waiter :: waiters) :
      Step client (.link generation .push)
        { client.setLink changed with session := some { session with pending := ⟨waiters⟩ } }
        [.answered (waiter.answer batch)]
  | unasked (generation : Nat) (link changed : Link) (batch : Batch) (session : Session)
      (hlink : client.link? generation = some link)
      (hstep : link.step? .push = some (changed, some (.answered batch)))
      (hsession : client.session = some session) (hsame : session.generation = generation)
      (hqueue : session.pending.waiters = []) :
      Step client (.link generation .push) (client.setLink changed) [.unasked batch]
  | exit (generation : Nat) (link : Link) (session : Session)
      (hlink : client.link? generation = some link) (hwatch : link.watch = .ended (.ok (some 0)))
      (hsession : client.session = some session) (hsame : session.generation = generation) :
      Step client (.link generation .report)
        { (client.setLink { link with watch := .reported }).dismissLink generation with
          status := .stopped
          session := none } session.drained
  | crash (generation : Nat) (link : Link) (waited : Job.Waited) (session : Session)
      (hlink : client.link? generation = some link) (hwatch : link.watch = .ended waited)
      (hwaited : waited ≠ .ok (some 0)) (hsession : client.session = some session)
      (hsame : session.generation = generation) :
      Step client (.link generation .report)
        { (client.setLink { link with watch := .reported }).dismissLink generation with
          status := .crashed
          session := none
          timers := client.timers ++ [generation] } session.drained

namespace Step

/-- A call to start the daemon follows the rules. -/
theorem of_start (client : DaemonClient) (result : Except SystemError Unit) :
    Step client (.start result) (client.start result).2 [.started (client.start result).1] := by
  by_cases hup : client.IsUp
  · rw [start_of_isUp hup]
    exact .startUp result hup
  · rw [start_of_not_isUp hup]
    exact .start result hup

/-- A call to stop the daemon follows the rules. -/
theorem of_stop (client : DaemonClient) : Step client .stop client.stop [] := by
  unfold DaemonClient.stop
  cases hsession : client.session with
  | none => exact .stopNothing hsession
  | some session => exact .stop session hsession

/-- The later steps of a call to stop the daemon follow the rules. -/
theorem of_stopStep? {index : Nat} (haction : action = .dismiss index ∨ action = .stopReturns index)
    (h : client.stopStep? index action = some (next, told)) : Step client action next told := by
  obtain ⟨point, hpoint, h⟩ := Option.bind_eq_some_iff.1 h
  rcases haction with rfl | rfl
  · cases point with
    | taken session =>
        cases h
        exact .dismiss index session hpoint
    | _ => exact nomatch h
  · cases point with
    | awaiting generation =>
        obtain ⟨link, hlink, h⟩ := Option.bind_eq_some_iff.1 h
        obtain ⟨hreported, h⟩ := Option.ite_none_right_eq_some.1 h
        cases h
        exact .stopReturns index generation link hpoint hlink hreported
    | _ => exact nomatch h

/-- A call to send a request follows the rules. -/
theorem of_request (client : DaemonClient) (fields : List String) :
    Step client (.request fields) (client.request fields).1 (client.request fields).2 := by
  rcases client.request_cases fields with
    ⟨session, link, hstatus, hsession, hlink, heq⟩ | ⟨error, -, heq⟩
  · rw [heq]
    exact .accept fields session link hstatus hsession hlink
  · rw [heq]
    exact .refuse fields error

/-- A timer that runs out follows the rules. -/
theorem of_fire {generation : Nat} (htimer : generation ∈ client.timers) :
    Step client (.timer generation) (client.fire generation) [] := by
  unfold fire
  dsimp only
  split
  · rename_i hdue
    exact .timerDue generation htimer hdue.1 hdue.2
  · rename_i hlate
    exact .timerLate generation htimer hlate

/-- An answer that comes over a link follows the rules. -/
theorem of_resolve {generation : Nat} {link changed : Link} {linkAction : Link.Action}
    {batch : Batch} (hlink : client.link? generation = some link)
    (hstep : link.step? linkAction = some (changed, some (.answered batch))) :
    Step client (.link generation linkAction)
      ((client.setLink changed).resolve generation batch).1
      ((client.setLink changed).resolve generation batch).2 := by
  rcases client.inSession_cases generation with ⟨session, hsession, rfl⟩ | hout
  · obtain ⟨rfl, -⟩ := Link.eq_push_of_answered hstep
    cases hqueue : session.pending.waiters with
    | nil =>
        have heq : (client.setLink changed).resolve session.generation batch
            = (client.setLink changed, [.unasked batch]) := by
          simp [resolve, setLink, hsession, Pending.resolveNext, hqueue]
        rw [heq]
        exact .unasked _ link changed batch session hlink hstep hsession rfl hqueue
    | cons waiter waiters =>
        have heq : (client.setLink changed).resolve session.generation batch
            = ({ client.setLink changed with
                  session := some { session with pending := ⟨waiters⟩ } },
                [.answered (waiter.answer batch)]) := by
          simp [resolve, setLink, hsession, Pending.resolveNext, hqueue]
        rw [heq]
        exact .answer _ link changed batch session waiter waiters hlink hstep hsession rfl hqueue
  · have hother : ∀ session, (client.setLink changed).session = some session →
        session.generation ≠ generation := not_inSession_iff.1 hout
    rw [resolve_of_not_inSession hother]
    exact .link generation linkAction link changed _ hlink hstep (.inr hout)

/-- The report of the end of a process follows the rules. -/
theorem of_onExit {generation : Nat} {link changed : Link} {linkAction : Link.Action}
    {waited : Job.Waited} (hlink : client.link? generation = some link)
    (hstep : link.step? linkAction = some (changed, some (.exited waited))) :
    Step client (.link generation linkAction)
      ((client.setLink changed).onExit generation waited).1
      ((client.setLink changed).onExit generation waited).2 := by
  rcases client.inSession_cases generation with ⟨session, hsession, rfl⟩ | hout
  · obtain ⟨rfl, hwatch, rfl⟩ := Link.eq_report_of_exited hstep
    have hkept : (client.setLink { link with watch := .reported }).session = some session :=
      hsession
    by_cases hclean : waited = .ok (some 0)
    · rw [hclean, onExit_clean hkept]
      exact .exit _ link session hlink (hclean ▸ hwatch) hsession rfl
    · rw [onExit_crash hkept hclean]
      exact .crash _ link waited session hlink hwatch hclean hsession rfl
  · have hother : ∀ session, (client.setLink changed).session = some session →
        session.generation ≠ generation := not_inSession_iff.1 hout
    rw [onExit_of_not_inSession hother]
    exact .link generation linkAction link changed _ hlink hstep (.inr hout)

/-- What a client does follows the rules. -/
theorem of_step? (h : client.step? action = some (next, told)) : Step client action next told := by
  cases action with
  | start result =>
      cases h
      exact .of_start client result
  | stop =>
      cases h
      exact .of_stop client
  | dismiss index => exact .of_stopStep? (.inl rfl) h
  | stopReturns index => exact .of_stopStep? (.inr rfl) h
  | request fields =>
      have hrequest := Step.of_request client fields
      rw [Option.some.inj h] at hrequest
      exact hrequest
  | abandon request =>
      cases h
      exact .abandon request
  | timer generation =>
      obtain ⟨htimer, h⟩ := Option.ite_none_right_eq_some.1 h
      cases h
      exact .of_fire htimer
  | restart result =>
      obtain ⟨hdue, h⟩ := Option.ite_none_right_eq_some.1 h
      cases h
      by_cases hup : client.IsUp
      · have hkept : { client with restarting := client.restarting - 1 }.IsUp := hup
        rw [start_of_isUp hkept]
        exact .restartUp result hdue hup
      · have hdown : ¬ { client with restarting := client.restarting - 1 }.IsUp := hup
        rw [start_of_not_isUp hdown]
        exact .restart result hdue hup
  | link generation linkAction =>
      obtain ⟨link, hlink, h⟩ := Option.bind_eq_some_iff.1 h
      obtain ⟨⟨changed, notice⟩, hstep, h⟩ := Option.bind_eq_some_iff.1 h
      have h := Option.some.inj h
      cases notice with
      | none =>
          cases h
          exact .link generation linkAction link changed none hlink hstep (.inl rfl)
      | some notice =>
          cases notice with
          | answered batch =>
              have hanswer := Step.of_resolve hlink hstep
              rw [show (client.setLink changed).resolve generation batch = (next, told) from h]
                at hanswer
              exact hanswer
          | exited waited =>
              have hexit := Step.of_onExit hlink hstep
              rw [show (client.setLink changed).onExit generation waited = (next, told) from h]
                at hexit
              exact hexit

end Step

end DaemonClient

end Toolbench
