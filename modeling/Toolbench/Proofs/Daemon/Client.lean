import Toolbench.Daemon.Client

/-!
# What the operations of a client change

One lemma per operation of a client, for what later arguments observe: the session, the
generation, the number of the next request and the texts that the writer of a process was given.
No step of a link changes its generation or what it was sent (`Link.step?_keeps`), so those texts
change only when a request is accepted (`texts_accept`).
-/

namespace Toolbench

namespace Link

/-- Steps of the writer change how far it has come, or that it is there. -/
theorem eq_of_writerStep? {link next : Link} {action : Action}
    (h : link.writerStep? action = some next) :
    ∃ written writing, next = { link with written, writing } := by
  cases action <;>
    simp only [writerStep?, Option.ite_none_right_eq_some, Option.some.injEq, reduceCtorEq] at h
  all_goals
    obtain ⟨-, rfl⟩ := h
    exact ⟨_, _, rfl⟩

/-- Steps of the writer leave the requests of a link as they are. -/
theorem writerStep?_keeps {link next : Link} {action : Action}
    (h : link.writerStep? action = some next) :
    next.generation = link.generation ∧ next.sent = link.sent := by
  obtain ⟨_, _, rfl⟩ := eq_of_writerStep? h
  exact ⟨rfl, rfl⟩

/-- Steps of the process leave the requests of a link and its watch as they are. -/
theorem childStep?_keeps {link next : Link} {action : Action}
    (h : link.childStep? action = some next) :
    next.generation = link.generation ∧ next.sent = link.sent ∧ next.watch = link.watch := by
  cases action with
  | produce bytes =>
      simp only [childStep?, Option.ite_none_right_eq_some, Option.some.injEq] at h
      obtain ⟨-, rfl⟩ := h
      exact ⟨rfl, rfl, rfl⟩
  | closeOutput =>
      cases h
      exact ⟨rfl, rfl, rfl⟩
  | childEnds code =>
      simp only [childStep?] at h
      split at h
      · cases h
        exact ⟨rfl, rfl, rfl⟩
      · exact nomatch h
  | _ => exact nomatch h

/-- Steps of the reader leave the requests of a link and its watch as they are. -/
theorem readerStep?_keeps {link next : Link} {action : Action} {notice : Option Notice}
    (h : link.readerStep? action = some (next, notice)) :
    next.generation = link.generation ∧ next.sent = link.sent ∧ next.watch = link.watch := by
  cases action with
  | read | readEnd | readFails =>
      simp only [readerStep?, Option.ite_none_right_eq_some, Option.some.injEq,
        Prod.mk.injEq] at h
      obtain ⟨-, rfl, -⟩ := h
      exact ⟨rfl, rfl, rfl⟩
  | push =>
      simp only [readerStep?] at h
      split at h
      · exact nomatch h
      · cases h
        exact ⟨rfl, rfl, rfl⟩
  | _ => exact nomatch h

/-- Steps of the watch change how far it has come. -/
theorem eq_of_watchStep? {link next : Link} {action : Action} {notice : Option Notice}
    (h : link.watchStep? action = some (next, notice)) :
    ∃ watch, next = { link with watch } := by
  cases action with
  | notice =>
      simp only [watchStep?] at h
      split at h
      · obtain ⟨-, h⟩ := Option.ite_none_right_eq_some.1 h
        cases h
        exact ⟨_, rfl⟩
      · exact nomatch h
  | observeEnd =>
      simp only [watchStep?] at h
      split at h
      · exact nomatch h
      · obtain ⟨-, h⟩ := Option.ite_none_right_eq_some.1 h
        cases h
        exact ⟨_, rfl⟩
  | graceOver | report =>
      simp only [watchStep?] at h
      split at h
      · cases h
        exact ⟨_, rfl⟩
      · exact nomatch h
  | loseTrack cause =>
      obtain ⟨-, h⟩ := Option.ite_none_right_eq_some.1 h
      cases h
      exact ⟨_, rfl⟩
  | _ => exact nomatch h

/-- Steps of the watch leave the requests of a link as they are. -/
theorem watchStep?_keeps {link next : Link} {action : Action} {notice : Option Notice}
    (h : link.watchStep? action = some (next, notice)) :
    next.generation = link.generation ∧ next.sent = link.sent := by
  obtain ⟨_, rfl⟩ := eq_of_watchStep? h
  exact ⟨rfl, rfl⟩

/-- No step of a link changes its generation or what it was sent. -/
theorem step?_keeps {link next : Link} {action : Action} {notice : Option Notice}
    (h : link.step? action = some (next, notice)) :
    next.generation = link.generation ∧ next.sent = link.sent := by
  cases action <;> simp only [step?, Option.map_eq_some_iff, Prod.mk.injEq] at h
  case write | writeFails | closeInput =>
    obtain ⟨_, hstep, rfl, -⟩ := h
    exact writerStep?_keeps hstep
  case produce | closeOutput | childEnds =>
    obtain ⟨_, hstep, rfl, -⟩ := h
    exact ⟨(childStep?_keeps hstep).1, (childStep?_keeps hstep).2.1⟩
  case read | readEnd | readFails | push =>
    exact ⟨(readerStep?_keeps h).1, (readerStep?_keeps h).2.1⟩
  case notice | graceOver | observeEnd | loseTrack | report => exact watchStep?_keeps h

end Link

namespace DaemonClient

/-- The texts that the writer of a process was given, in order. -/
def texts (client : DaemonClient) (generation : Nat) : List String :=
  ((client.link? generation).map fun link => link.sent.map (·.text)).getD []

/-- The link that is found for a generation has that generation. -/
theorem generation_of_link? {client : DaemonClient} {generation : Nat} {link : Link}
    (h : client.link? generation = some link) : link.generation = generation := by
  simpa using List.find?_some h

/-- Changing links in place does not change which one is found for a generation. -/
theorem find?_map_link (links : List Link) (change : Link → Link)
    (hchange : ∀ link, (change link).generation = link.generation) (generation : Nat) :
    (links.map change).find? (·.generation = generation)
      = (links.find? (·.generation = generation)).map change := by
  rw [List.find?_map]
  congr 2
  funext link
  simp [hchange]

theorem link?_setLink (client : DaemonClient) (link : Link) (generation : Nat) :
    (client.setLink link).link? generation
      = (client.link? generation).map fun other =>
          if other.generation = link.generation then link else other := by
  refine find?_map_link client.links _ (fun other => ?_) generation
  split
  · rename_i h
    exact h.symm
  · rfl

theorem link?_dismissLink (client : DaemonClient) (dismissed generation : Nat) :
    (client.dismissLink dismissed).link? generation
      = (client.link? generation).map fun link =>
          if link.generation = dismissed then { link with dismissed := true } else link := by
  refine find?_map_link client.links _ (fun link => ?_) generation
  split <;> rfl

/-- The texts of a generation are those of its link. -/
theorem texts_of_link? {client : DaemonClient} {generation : Nat} {link : Link}
    (h : client.link? generation = some link) :
    client.texts generation = link.sent.map (·.text) := by
  simp [texts, h]

/-- A link in the place of another one has its own texts; all other links keep theirs. -/
theorem texts_setLink {client : DaemonClient} {link old : Link}
    (hold : client.link? link.generation = some old) (generation : Nat) :
    (client.setLink link).texts generation
      = if generation = link.generation then link.sent.map (·.text)
        else client.texts generation := by
  rw [texts, texts, link?_setLink]
  by_cases h : generation = link.generation
  · subst h
    simp [hold, generation_of_link? hold]
  · cases hfound : client.link? generation with
    | none => simp [h]
    | some found =>
        have hother : found.generation ≠ link.generation := by
          rw [generation_of_link? hfound]
          exact h
        simp [h, hother]

/-- A step of a link leaves all texts as they are. -/
theorem texts_setLink_step {client : DaemonClient} {generation : Nat} {link next : Link}
    {action : Link.Action} {notice : Option Link.Notice}
    (hlink : client.link? generation = some link)
    (hstep : link.step? action = some (next, notice)) (other : Nat) :
    (client.setLink next).texts other = client.texts other := by
  obtain ⟨hgeneration, hsent⟩ := Link.step?_keeps hstep
  have hnext : next.generation = generation := hgeneration.trans (generation_of_link? hlink)
  rw [texts_setLink (hnext ▸ hlink), hnext]
  by_cases h : other = generation
  · rw [if_pos h, h, texts_of_link? hlink, hsent]
  · rw [if_neg h]

/-- A request for the writer of one process is a text more for it and nothing for the others. -/
theorem texts_setLink_send {client : DaemonClient} {generation : Nat} {link : Link}
    (hlink : client.link? generation = some link) (request : Nat) (text : String) (other : Nat) :
    (client.setLink (link.send request text)).texts other
      = client.texts other ++ if other = generation then [text] else [] := by
  have hnext : (link.send request text).generation = generation := by
    show link.generation = generation
    exact generation_of_link? hlink
  rw [texts_setLink (hnext ▸ hlink), hnext]
  by_cases h : other = generation
  · rw [if_pos h, if_pos h, h, texts_of_link? hlink]
    simp [Link.send]
  · rw [if_neg h, if_neg h, List.append_nil]

@[simp] theorem texts_dismissLink (client : DaemonClient) (dismissed generation : Nat) :
    (client.dismissLink dismissed).texts generation = client.texts generation := by
  rw [texts, texts, link?_dismissLink, Option.map_map]
  congr 2
  funext link
  simp only [Function.comp_apply]
  split <;> rfl

/-- Texts are what the links say. -/
theorem texts_congr {client other : DaemonClient} (h : other.links = client.links)
    (generation : Nat) : other.texts generation = client.texts generation := by
  rw [texts, texts, link?, link?, h]

/-- The writer of a process that was just started was given nothing. -/
theorem texts_append_fresh {client other : DaemonClient} {fresh : Nat}
    (h : other.links = client.links ++ [.fresh fresh]) (generation : Nat) :
    other.texts generation = client.texts generation := by
  rw [texts, texts, link?, link?, h, List.find?_append]
  cases hfound : client.links.find? (·.generation = generation) with
  | some link => rfl
  | none =>
      by_cases hfresh : fresh = generation <;> simp [Link.fresh, hfresh]

/-! ## Operations that leave requests alone -/

/-- Nothing is requested or answered between the two clients; at most the session is over. -/
structure Quiet (client next : DaemonClient) : Prop where
  session : next.session = client.session ∨ next.session = none
  generation : next.generation = client.generation
  nextRequest : next.nextRequest = client.nextRequest
  texts : ∀ generation, next.texts generation = client.texts generation

theorem quiet_setLink {client : DaemonClient} {generation : Nat} {link next : Link}
    {action : Link.Action} {notice : Option Link.Notice}
    (hlink : client.link? generation = some link)
    (hstep : link.step? action = some (next, notice)) : Quiet client (client.setLink next) :=
  ⟨.inl rfl, rfl, rfl, texts_setLink_step hlink hstep⟩

theorem quiet_stop (client : DaemonClient) : Quiet client client.stop :=
  ⟨.inr rfl, rfl, rfl, texts_congr rfl⟩

theorem quiet_stopStep? {client next : DaemonClient} {index : Nat} {action : Action}
    {told : List Output} (h : client.stopStep? index action = some (next, told)) :
    Quiet client next := by
  simp only [stopStep?, Option.bind_eq_bind, Option.bind_eq_some_iff] at h
  obtain ⟨point, -, h⟩ := h
  split at h
  · cases h
    exact ⟨.inl rfl, rfl, rfl, texts_dismissLink client _⟩
  · simp only [Option.bind_eq_some_iff, Option.ite_none_right_eq_some] at h
    obtain ⟨link, -, -, h⟩ := h
    cases h
    exact ⟨.inl rfl, rfl, rfl, texts_congr rfl⟩
  · exact nomatch h

theorem quiet_fire (client : DaemonClient) (generation : Nat) :
    Quiet client (client.fire generation) := by
  unfold fire
  dsimp only
  split <;> exact ⟨.inl rfl, rfl, rfl, texts_congr rfl⟩

theorem quiet_onExit (client : DaemonClient) (generation : Nat) (waited : Job.Waited) :
    Quiet client (client.onExit generation waited).1 := by
  unfold onExit
  split
  · exact ⟨.inl rfl, rfl, rfl, texts_congr rfl⟩
  · split
    · dsimp only
      split <;> exact ⟨.inr rfl, rfl, rfl, texts_dismissLink client generation⟩
    · exact ⟨.inl rfl, rfl, rfl, texts_congr rfl⟩

/-! ## Requests -/

/-- A call to send a request either gives its text to the writer and its number to the queue of
the session, or is refused and does no more than use up its number. -/
theorem request_cases (client : DaemonClient) (fields : List String) :
    (∃ session link, client.status = .running ∧ client.session = some session ∧
      client.link? session.generation = some link ∧
      client.request fields =
        ({ client.setLink (link.send client.nextRequest (encodeRequest fields)) with
          nextRequest := client.nextRequest + 1
          session := some
            { session with pending := session.pending.enqueue client.nextRequest } }, [])) ∨
    ∃ error, (error = .notRunning ∨ error = .write) ∧
      client.request fields =
        ({ client with nextRequest := client.nextRequest + 1 },
          [.refused client.nextRequest error]) := by
  unfold request
  dsimp only
  split
  · rename_i session hstatus hsession
    split
    · rename_i link hlink
      split
      · exact .inl ⟨session, link, hstatus, hsession, hlink, rfl⟩
      · exact .inr ⟨.write, .inr rfl, rfl⟩
    · exact .inr ⟨.write, .inr rfl, rfl⟩
  · exact .inr ⟨.notRunning, .inl rfl, rfl⟩

/-! ## Answers -/

/-- An answer takes the first request out of the queue of the session, if there is one. -/
theorem resolve_eq {client : DaemonClient} {session : Session}
    (hsession : client.session = some session) (batch : Batch) :
    client.resolve session.generation batch =
      ({ client with
          session := some { session with pending := ⟨session.pending.waiters.tail⟩ } },
        match session.pending.waiters with
        | [] => [.unasked batch]
        | waiter :: _ => [.answered (waiter.answer batch)]) := by
  obtain ⟨generation, ⟨waiters⟩⟩ := session
  cases waiters with
  | nil =>
      -- An empty queue stays empty, so the session is the one that there was.
      have hsame : { client with session := some ⟨generation, ⟨[]⟩⟩ } = client := by
        rw [← hsession]
      show _ = ({ client with session := some ⟨generation, ⟨[]⟩⟩ }, _)
      rw [hsame]
      simp [resolve, hsession, Pending.resolveNext]
  | cons waiter waiters => simp [resolve, hsession, Pending.resolveNext]

/-- An answer of a process without a session is of no concern. -/
theorem resolve_of_not_inSession {client : DaemonClient} {generation : Nat}
    (h : ∀ session, client.session = some session → session.generation ≠ generation)
    (batch : Batch) : client.resolve generation batch = (client, []) := by
  unfold resolve
  split
  · rfl
  · rename_i session hsession
    exact if_neg (h session hsession)

end DaemonClient

end Toolbench
