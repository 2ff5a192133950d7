import Mathlib.Data.List.Pairwise
import Toolbench.Proofs.Daemon.Reading

/-!
# Processes of different generations

The readers and watches of old processes go on while newer processes run. `Placed` says that every
request stays with the generation that accepted it, wherever it waits and whichever writer was
given it. With what `Reads` says of the readers, `generations_isolated` follows: an answer with
lines in it is what the process of the request's own generation wrote, and an old process changes
nothing but its own link.
-/

namespace Toolbench.DaemonClient

open Machine (Event)

variable {client next : DaemonClient} {generation : Nat} {action : Action} {told : List Output}

/-! ## The generation of a request -/

/-- The requests that were accepted for the process of a generation: those of the log of its
session. -/
def History.requestsOf (past : History) (generation : Nat) : List Nat :=
  requests (past.filterMap (SessionEntry.ofEvent? generation))

/-- They are the accepted requests of the events in which the process has the session. -/
theorem requestsOf_eq (past : History) (generation : Nat) :
    past.requestsOf generation = past.filterMap fun event =>
      if event.before.inSession generation then accepted? event else none := by
  rw [History.requestsOf, requests, accepted, List.filterMap_filterMap, List.map_filterMap]
  refine List.filterMap_congr fun event _ => ?_
  unfold SessionEntry.ofEvent? accepted?
  cases event.action with
  | request fields =>
      by_cases hin : event.before.inSession generation = true
      · by_cases htold : event.told.isEmpty = true <;>
          simp [hin, htold, SessionEntry.accepted?]
      · simp [hin]
  | abandon request =>
      by_cases hold : request < event.before.nextRequest <;> simp [hold, SessionEntry.accepted?]
  | link other action =>
      by_cases hin : other = generation ∧ event.before.inSession generation = true
      · cases event.before.batch? generation action <;> simp [hin, SessionEntry.accepted?]
      · simp [hin]
  | _ => simp

theorem mem_requestsOf {past : History} {request : Nat} :
    request ∈ past.requestsOf generation ↔
      ∃ event ∈ past, event.before.inSession generation = true ∧ accepted? event = some request := by
  simp only [requestsOf_eq, List.mem_filterMap, Option.ite_none_right_eq_some]

/-- A request stays with its generation. -/
theorem requestsOf_mono (past later : History) (generation : Nat) :
    past.requestsOf generation ⊆ History.requestsOf (past ++ later) generation := by
  rw [requestsOf_eq, requestsOf_eq, List.filterMap_append]
  exact List.subset_append_left _ _

/-- A request that is accepted belongs to the generation of the session. -/
theorem mem_requestsOf_accept (past : History) {fields : List String}
    (hin : client.inSession generation = true) :
    client.nextRequest ∈
      History.requestsOf (past ++ [⟨client, .request fields, next, []⟩]) generation :=
  mem_requestsOf.2 ⟨_, List.mem_append_right _ (List.mem_singleton_self _), hin, rfl⟩

/-- Items of which each has something of its own are told apart by it. -/
theorem eq_of_nodup_filterMap {α β : Type} {f : α → Option β} {items : List α}
    (h : (items.filterMap f).Nodup) {first second : α} {own : β} (hfirst : first ∈ items)
    (hsecond : second ∈ items) (hown : f first = some own) (hsame : f second = some own) :
    first = second := by
  by_contra hne
  have hsymm : Std.Symm fun x y => ∀ b, f x = some b → ∀ c, f y = some c → b ≠ c :=
    ⟨fun _ _ hxy b hb c hc => (hxy c hc b hb).symm⟩
  have hapart := (List.pairwise_filterMap.1 h).forall hfirst hsecond hne
  exact hapart own hown own hsame rfl

/-- Every accepted request belongs to one generation. -/
theorem existsUnique_generation {settings : DaemonSettings} {actions : List Action}
    (hrun : (ofSettings settings).run? actions = some (client, told)) {request : Nat}
    (hrequest : request ∈ ((ofSettings settings).history actions).accepted) :
    ∃! generation, request ∈ ((ofSettings settings).history actions).requestsOf generation := by
  have hnodup := (Accounted.of_run hrun).nodup
  obtain ⟨event, hevent, haccepted⟩ := List.mem_filterMap.1 hrequest
  obtain ⟨hbefore, hstep⟩ := Machine.of_mem_trace step?
    (fun _ _ _ _ h hstep => Coherent.step h (.of_step? hstep)) (.initial settings) hevent
  -- Only a client with a session accepts requests.
  obtain ⟨session, hsession⟩ : ∃ session, event.before.session = some session := by
    obtain ⟨before, action, after, told⟩ := event
    cases (Step.of_step? hstep).exchange hbefore with
    | accepts fields session hsession => exact ⟨session, hsession⟩
    | abandons => exact nomatch haccepted
    | answers _ _ gone batch haccepts =>
        cases action with
        | request fields =>
            obtain ⟨hempty, -⟩ := Option.ite_none_right_eq_some.1 haccepted
            exact absurd (List.isEmpty_iff.1 hempty) (haccepts fields rfl)
        | _ => exact nomatch haccepted
  refine ⟨session.generation, mem_requestsOf.2 ⟨event, hevent, ?_, haccepted⟩, ?_⟩
  · simp [inSession, hsession]
  · intro other hother
    obtain ⟨second, hsecond, hin, hagain⟩ := mem_requestsOf.1 hother
    have hsame := eq_of_nodup_filterMap hnodup hsecond hevent hagain haccepted
    rw [hsame, inSession, hsession] at hin
    simpa [eq_comm] using hin

/-! ## Where requests go -/

/-- Requests wait, and are sent, where they belong. -/
structure Placed (past : History) (client : DaemonClient) : Prop where
  waiting : ∀ place ∈ client.waiters, place.2.id ∈ past.requestsOf place.1
  sent : ∀ generation link, client.link? generation = some link →
    ∀ sent ∈ link.sent, sent.request ∈ past.requestsOf generation

namespace Placed

variable {past : History}

/-- Before the first call there are no requests. -/
theorem initial (settings : DaemonSettings) : Placed [] (ofSettings settings) where
  waiting _ h := nomatch h
  sent _ _ h := nomatch h

/-- What waits after a step was accepted in it or has waited before. -/
theorem waiting_step (h : Placed past client) (hexchange : Exchange client next action told) :
    ∀ place ∈ next.waiters,
      place.2.id ∈ History.requestsOf (past ++ [⟨client, action, next, told⟩]) place.1 := by
  have hkept : ∀ place ∈ client.waiters,
      place.2.id ∈ History.requestsOf (past ++ [⟨client, action, next, told⟩]) place.1 :=
    fun place hplace => requestsOf_mono past _ place.1 (h.waiting place hplace)
  intro place hplace
  cases hexchange with
  | accepts fields session hsession _ hwaiters =>
      rcases List.mem_append.1 (hwaiters.subset hplace) with hold | hnew
      · exact hkept place hold
      · rw [List.mem_singleton.1 hnew]
        exact mem_requestsOf_accept past (by simp [inSession, hsession])
  | abandons request _ hwaiters =>
      rw [hwaiters] at hplace
      obtain ⟨old, hold, rfl⟩ := List.mem_map.1 hplace
      obtain ⟨hgeneration, hid⟩ := silence_keeps request old
      rw [hgeneration, hid]
      exact hkept old hold
  | answers _ _ gone _ _ _ _ _ hwaiters =>
      exact hkept place (hwaiters.subset (List.mem_append_right gone hplace))

/-- What a writer was given in a step was accepted for its process. -/
theorem sent_step (h : Placed past client) {link : Link}
    (hstep : LinkStep client generation told action (some link)) :
    ∀ sent ∈ link.sent, sent.request ∈
      History.requestsOf (past ++ [⟨client, action, next, told⟩]) generation := by
  have hkept : ∀ old, client.link? generation = some old → ∀ sent ∈ old.sent, sent.request ∈
      History.requestsOf (past ++ [⟨client, action, next, told⟩]) generation :=
    fun old hold sent hsent => requestsOf_mono past _ generation (h.sent generation old hold sent hsent)
  intro sent hsent
  cases hstep with
  | begun => exact nomatch hsent
  | kept _ old _ hold => exact hkept old hold sent hsent
  | sent fields old hold htold hin =>
      subst htold
      rcases List.mem_append.1 hsent with hmem | hnew
      · exact hkept old hold sent hmem
      · rw [List.mem_singleton.1 hnew]
        exact mem_requestsOf_accept past hin
  | acted linkAction old changed _ _ hold hact =>
      rw [show changed.sent = old.sent from (Link.step?_keeps hact).2] at hsent
      exact hkept old hold sent hsent

/-- In every history requests wait, and are sent, where they belong. -/
theorem of_run {settings : DaemonSettings} {actions : List Action}
    (hrun : (ofSettings settings).run? actions = some (client, told)) :
    Placed ((ofSettings settings).history actions) client := by
  refine history_invariant (fun past client action next told hclient h hstep => ?_)
    (initial settings) hrun
  refine ⟨h.waiting_step (hstep.exchange hclient), fun generation link hlink => ?_⟩
  have hlinkStep := hstep.linkStep generation
  rw [hlink] at hlinkStep
  exact h.sent_step hlinkStep

end Placed

/-! ## Where answers come from -/

/-- An answer is for a request that waits. It is empty, or it has come from the process of the
request's generation. -/
theorem Step.answered_cases (h : Step client action next told) {answer : Answer Nat}
    (hanswer : .answered answer ∈ told) :
    ∃ place ∈ client.waiters, place.2.id = answer.id ∧
      (answer.batch = [] ∨ ∃ link changed, action = .link place.1 .push ∧
        client.link? place.1 = some link ∧
        link.step? .push = some (changed, some (.answered answer.batch))) := by
  have hdrained : ∀ session : Session,
      (client.session = some session ∨ .taken session ∈ client.stops) →
      .answered answer ∈ session.drained →
      ∃ place ∈ client.waiters, place.2.id = answer.id ∧ answer.batch = [] := by
    intro session hsession hmem
    have hgiven : answer ∈ session.drained.filterMap Output.answer? :=
      List.mem_filterMap.2 ⟨_, hmem, rfl⟩
    rw [answers_drained] at hgiven
    obtain ⟨waiter, hwaiter, rfl⟩ := List.mem_map.1 hgiven
    exact ⟨(session.generation, waiter), mem_waiters.2 ⟨session, hsession,
      Session.mem_waiters.2 ⟨rfl, hwaiter⟩⟩, rfl, rfl⟩
  cases h with
  | dismiss index session hpoint =>
      obtain ⟨place, hplace, hid, hempty⟩ :=
        hdrained session (.inr (List.mem_of_getElem? hpoint)) hanswer
      exact ⟨place, hplace, hid, .inl hempty⟩
  | exit _ _ session _ _ hsession | crash _ _ _ session _ _ _ hsession =>
      obtain ⟨place, hplace, hid, hempty⟩ := hdrained session (.inl hsession) hanswer
      exact ⟨place, hplace, hid, .inl hempty⟩
  | answer acting link changed batch session waiter waiters hlink hstep hsession hsame hqueue =>
      cases List.mem_singleton.1 hanswer
      have hwaiter : waiter ∈ session.pending.waiters := by
        rw [hqueue]
        exact List.mem_cons_self
      refine ⟨(acting, waiter), mem_waiters.2 ⟨session, .inl hsession,
        Session.mem_waiters.2 ⟨hsame.symm, hwaiter⟩⟩, rfl, .inr ⟨link, changed, rfl, hlink, hstep⟩⟩
  | _ => simp at hanswer

/-- What a link does whose process has no session changes that link and nothing else. -/
theorem step?_link_of_not_inSession {linkAction : Link.Action}
    (hout : client.inSession generation = false)
    (h : client.step? (.link generation linkAction) = some (next, told)) :
    told = [] ∧ next = { client with links := next.links } ∧
      ∀ other, other ≠ generation → next.link? other = client.link? other := by
  have hsession : ∀ session, client.session = some session → session.generation ≠ generation :=
    not_inSession_iff.1 hout
  cases Step.of_step? h with
  | link _ _ link changed _ hlink hstep =>
      refine ⟨rfl, rfl, fun other hother => link?_setLink_other ?_⟩
      rw [(Link.step?_keeps hstep).1, generation_of_link? hlink]
      exact hother.symm
  | answer _ _ _ _ session _ _ _ _ hfound hsame => exact absurd hsame (hsession session hfound)
  | unasked _ _ _ _ session _ _ hfound hsame => exact absurd hsame (hsession session hfound)
  | exit _ _ session _ _ hfound hsame => exact absurd hsame (hsession session hfound)
  | crash _ _ _ session _ _ _ hfound hsame => exact absurd hsame (hsession session hfound)

/-! ## Isolation -/

/-- The processes of different generations have nothing to do with each other. -/
structure Isolated (past : History) (client : DaemonClient) : Prop where
  owner : ∀ request ∈ past.accepted, ∃! generation, request ∈ past.requestsOf generation
  /-- An answer is empty, or it is what the process of the request's generation wrote between two
  lines that end an answer. -/
  answers : ∀ (earlier : History) event later answer, past = earlier ++ event :: later →
    .answered answer ∈ event.told →
    ∃ generation, answer.id ∈ earlier.requestsOf generation ∧
      (answer.batch = [] ∨ event.action = .link generation .push ∧
        answer.batch = Link.sinceLastEnd (earlier.linesRead generation) ∧
        ∃ last, endsBatch last = true ∧
          History.linesRead (earlier ++ [event]) generation
            = earlier.linesRead generation ++ [last])
  /-- The lines that were read of a process are lines that it wrote. -/
  lines : ∀ generation,
    past.linesRead generation <+: LineBuffer.linesOf (past.bytesWritten generation)
  /-- The writer of a process was given requests of its own generation only. -/
  sent : ∀ generation link, client.link? generation = some link →
    ∀ sent ∈ link.sent, sent.request ∈ past.requestsOf generation
  /-- Whatever an old process, its reader or its watch does, it changes its own link only: status,
  session, waiting requests and timers stay as they are. -/
  late : ∀ generation action next told,
    generation < client.generation ∨ client.session = none →
    client.step? (.link generation action) = some (next, told) →
    told = [] ∧ next = { client with links := next.links } ∧
      ∀ other, other ≠ generation → next.link? other = client.link? other

/-- However crashes, stops, starts and restarts follow each other, and however late old processes
and those that wait for them act, the processes of different generations have nothing to do with
each other. -/
theorem generations_isolated {settings : DaemonSettings} {actions : List Action}
    (hrun : (ofSettings settings).run? actions = some (client, told)) :
    Isolated ((ofSettings settings).history actions) client where
  owner _ hrequest := existsUnique_generation hrun hrequest
  answers earlier event later answer hpast hanswer := by
    -- What came before the event is a history too, so what holds after histories holds before it.
    obtain ⟨actions, told, hearlier, rfl, hstep⟩ := Machine.exists_run_of_append step? hpast
    have hplaced : Placed ((ofSettings settings).history actions) event.before := .of_run hearlier
    obtain ⟨place, hplace, hid, hbatch⟩ := (Step.of_step? hstep).answered_cases hanswer
    have hreads : Reads place.1 ((ofSettings settings).history actions) event.before :=
      .of_run hearlier place.1
    refine ⟨place.1, hid ▸ hplaced.waiting place hplace, ?_⟩
    rcases hbatch with hempty | ⟨link, changed, haction, hlink, hpush⟩
    · exact .inl hempty
    · obtain ⟨hlines, last, hlast, hends⟩ := (hreads.reading link hlink).answered hpush
      refine .inr ⟨haction, hlines, last, hends, ?_⟩
      have hline : lineOf? place.1 event = some last := by
        simp only [lineOf?, haction, if_true, hlink, Option.bind_some, hlast]
      rw [linesRead_concat, hline]
      rfl
  lines generation := (Reads.of_run hrun generation).prefix_linesOf
  sent := (Placed.of_run hrun).sent
  late generation action next told hold hstep := by
    have hclient : client.Coherent := .of_run hrun
    refine step?_link_of_not_inSession (not_inSession_iff.2 fun session hsession hsame => ?_) hstep
    rcases hold with hlt | hnone
    · rw [← hsame, hclient.current session hsession] at hlt
      exact Nat.lt_irrefl _ hlt
    · cases hnone.symm.trans hsession

/-- The answer of a crashed process is read after the next one was asked, and goes to nobody. -/
theorem generations_isolated_late_answer :
    let actions : List Action :=
      [.start (.ok ()), .request ["a"], .link 1 (.produce [120, 10, 69, 78, 68, 10]),
        .link 1 (.childEnds (some 3)), .link 1 .observeEnd, .link 1 .report, .timer 1,
        .restart (.ok ()), .request ["b"], .link 1 (.read 6), .link 1 .push, .link 1 .push,
        .link 2 (.produce [121, 10, 69, 78, 68, 10]), .link 2 (.read 6), .link 2 .push,
        .link 2 .push]
    let past := (ofSettings .standard).history actions
    ∃ client told, (ofSettings .standard).run? actions = some (client, told) ∧
      past.answers = [⟨0, [], true⟩, ⟨1, ["y"], true⟩] ∧ past.linesRead 1 = ["x", "END"] ∧
      past.requestsOf 1 = [0] ∧ past.requestsOf 2 = [1] ∧ Isolated past client := by
  intro actions past
  have hisolated := generations_isolated
    (rfl : (ofSettings .standard).run? actions = some (_, _))
  exact ⟨_, _, rfl, rfl, rfl, rfl, rfl, hisolated⟩

end Toolbench.DaemonClient
