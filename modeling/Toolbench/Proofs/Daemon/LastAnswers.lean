import Toolbench.Proofs.Daemon.Isolation
import Toolbench.Proofs.Daemon.Pairing

/-!
# The last answers of a process

The reader of a process and the watch that reports its end go on independently of each other, and
the report takes the session away. `answers_read_in_time` says what that leaves to the requests:
those whose answers the reader had gone on to have them, and all others get an empty answer, so an
answer that was written in time and read too late is lost (`answer_lost`). Read `Handles` first:
while a session lasts, what its reader has gone on to is what the session has handled. `Lasts` says
how long that is.
-/

namespace Toolbench

/-! ## The answers in lines -/

/-- The answers that lines make up. -/
def batchesOf (lines : List String) : List Batch :=
  (BatchBuffer.empty.pushAll lines).1

/-- Lines are put together one after the other. -/
theorem BatchBuffer.pushAll_append (lines more : List String) (buffer : BatchBuffer) :
    buffer.pushAll (lines ++ more)
      = ((buffer.pushAll lines).1 ++ ((buffer.pushAll lines).2.pushAll more).1,
        ((buffer.pushAll lines).2.pushAll more).2) := by
  induction lines generalizing buffer with
  | nil => rfl
  | cons line lines ih => simp only [List.cons_append, pushAll, ih, List.append_assoc]

theorem BatchBuffer.pushAll_concat (lines : List String) (line : String) (buffer : BatchBuffer) :
    buffer.pushAll (lines ++ [line])
      = ((buffer.pushAll lines).1 ++ ((buffer.pushAll lines).2.push line).1.toList,
        ((buffer.pushAll lines).2.push line).2) := by
  simp [pushAll_append, pushAll]

/-- The lines of an answer that is not complete are those since the last end. -/
theorem held_pushAll (lines : List String) :
    (BatchBuffer.empty.pushAll lines).2.linesReversed.reverse = Link.sinceLastEnd lines := by
  induction lines using List.reverseRecOn with
  | nil => rfl
  | append_singleton lines line ih =>
      rw [BatchBuffer.pushAll_concat]
      exact Link.held_push ih line

theorem batchesOf_concat (lines : List String) (line : String) :
    batchesOf (lines ++ [line])
      = batchesOf lines ++ if endsBatch line then [Link.sinceLastEnd lines] else [] := by
  rw [batchesOf, BatchBuffer.pushAll_concat, ← held_pushAll]
  unfold BatchBuffer.push
  split <;> rfl

/-- The first lines make up the first answers. -/
theorem batchesOf_mono {lines more : List String} (h : lines <+: more) :
    batchesOf lines <+: batchesOf more := by
  obtain ⟨later, rfl⟩ := h
  rw [batchesOf, batchesOf, BatchBuffer.pushAll_append]
  exact List.prefix_append _ _

namespace Link

variable {bytes : List UInt8} {lines : List String} {link next : Link} {action : Action}
  {notice : Option Notice}

/-- An answer is heard of when the reader goes on to the line that ends it. -/
theorem Reading.batchesOf_step (h : Reading bytes lines link)
    (hstep : link.step? action = some (next, notice)) :
    batchesOf (lines ++ (link.passed? action).toList)
      = batchesOf lines ++ (notice.bind Notice.batch?).toList := by
  by_cases hpush : action = .push
  · subst hpush
    simp only [Link.step?, Link.readerStep?] at hstep
    split at hstep
    · cases hstep
    · rename_i line ready hready
      cases hstep
      rw [passed?, hready, List.head?_cons, Option.toList_some, batchesOf_concat, ← h.held]
      unfold BatchBuffer.push
      split <;> rfl
  · have hpassed : link.passed? action = none := by
      cases action with
      | push => exact absurd rfl hpush
      | _ => rfl
    have hnothing : notice.bind Notice.batch? = none := by
      cases notice with
      | none => rfl
      | some given =>
          cases given with
          | answered batch => exact absurd (eq_push_of_answered hstep).1 hpush
          | exited => rfl
    rw [hpassed, hnothing, Option.toList_none, List.append_nil, Option.toList_none,
      List.append_nil]

/-- What a report says is what the watch knows. -/
theorem eq_of_report (h : link.step? .report = some (next, notice)) :
    ∃ waited, link.watch = .ended waited ∧ next = { link with watch := .reported } ∧
      notice = some (.exited waited) := by
  simp only [step?, watchStep?] at h
  split at h
  · rename_i waited hwatch
    cases h
    exact ⟨waited, hwatch, rfl, rfl⟩
  · cases h

/-- The report of the end of a process is the last that its watch does. -/
theorem isReported_of_step (h : link.step? action = some (next, notice))
    (hreported : link.isReported = true ∨ action = .report) : next.isReported = true := by
  rcases hreported with hold | rfl
  · have hlast : link.watch = .reported := by
      cases hpoint : link.watch with
      | reported => rfl
      | _ => rw [isReported, hpoint] at hold; cases hold
    suffices hkept : next.watch = .reported by rw [isReported, hkept]
    cases action <;> simp only [step?, Option.map_eq_some_iff, Prod.mk.injEq] at h
    case write | writeFails | closeInput =>
      obtain ⟨_, hstep, rfl, -⟩ := h
      obtain ⟨_, _, rfl⟩ := eq_of_writerStep? hstep
      exact hlast
    case produce | closeOutput | childEnds =>
      obtain ⟨_, hstep, rfl, -⟩ := h
      rw [(childStep?_keeps hstep).2.2, hlast]
    case read | readEnd | readFails | push => rw [(readerStep?_keeps h).2.2, hlast]
    case observeEnd =>
      simp only [watchStep?, isWaiting, hlast, Bool.false_eq_true, if_false] at h
      split at h <;> cases h
    case notice | graceOver | loseTrack | report => simp [watchStep?, isWaiting, hlast] at h
  · obtain ⟨waited, -, rfl, -⟩ := eq_of_report h
    rfl

end Link

namespace DaemonClient

open Machine (Event)

variable {client next : DaemonClient} {generation : Nat} {action : Action} {told : List Output}

/-! ## The answers that a session handles -/

/-- The log of the session of a generation. -/
def History.logOf (past : History) (generation : Nat) : List SessionEntry :=
  past.filterMap (SessionEntry.ofEvent? generation)

/-- A generation has the session that it had, or it has begun. -/
theorem Step.inSession_next (h : Step client action next told)
    (hin : next.inSession generation = true) :
    client.inSession generation = true ∨ client.generation < generation := by
  have hattempt : ∀ (base : DaemonClient) (result : Except SystemError Unit),
      (base.attempt result).inSession generation = true →
      base.inSession generation = true ∨ base.generation < generation := by
    intro base result hin
    rcases base.attempt_cases result with ⟨-, -, heq⟩ | ⟨-, -, heq⟩ | ⟨-, -, heq⟩
    · rw [heq] at hin
      have hnew : base.generation + 1 = generation := by simpa [inSession] using hin
      exact .inr (hnew ▸ Nat.lt_succ_self _)
    · rw [heq] at hin
      exact .inl hin
    · rw [heq] at hin
      exact .inl hin
  cases h with
  | start result => exact hattempt _ result hin
  | restart result => exact hattempt { client with restarting := client.restarting - 1 } result hin
  | stopNothing | stop | exit | crash => cases hin
  | accept _ session _ _ hsession | answer _ _ _ _ session _ _ _ _ hsession =>
      refine .inl ?_
      rw [inSession, hsession]
      exact hin
  | abandon request =>
      have hkept :
          (client.session.map (·.abandon request)).any (·.generation = generation) = true := hin
      rw [Option.any_map] at hkept
      exact .inl hkept
  | startUp | dismiss | stopReturns | refuse | timerDue | timerLate | restartUp | link | unasked =>
      exact .inl hin

/-- A party of a link acts on the link that there is. -/
theorem Step.exists_act {linkAction : Link.Action}
    (h : Step client (.link generation linkAction) next told) :
    ∃ link changed notice, client.link? generation = some link ∧
      link.step? linkAction = some (changed, notice) := by
  have hlinkStep := h.linkStep generation
  generalize next.link? generation = found at hlinkStep
  cases hlinkStep with
  | absent _ _ hother | begun _ _ hother | kept _ _ _ _ hother =>
      exact absurd rfl (hother linkAction)
  | acted _ link changed notice _ hlink hstep => exact ⟨link, changed, notice, hlink, hstep⟩

/-- No generation is given twice. -/
theorem Step.generation_le (h : Step client action next told) :
    client.generation ≤ next.generation := by
  cases h with
  | start | restart =>
      rw [attempt_generation]
      exact Nat.le_succ _
  | _ => exact Nat.le_refl _

/-- A generation that has not begun has no link. -/
theorem Coherent.link?_eq_none (h : client.Coherent) (hlt : client.generation < generation) :
    client.link? generation = none := by
  cases hlink : client.link? generation with
  | none => rfl
  | some link =>
      have hmem : generation ∈ client.generations :=
        List.mem_map.2 ⟨link, List.mem_of_find?_eq_some hlink, generation_of_link? hlink⟩
      exact absurd (h.generations_le _ hmem) (Nat.not_le.2 hlt)

/-- The answer that an event adds to those of a session. -/
def handledIn? (generation : Nat) (event : Event DaemonClient Action Output) : Option Batch :=
  (SessionEntry.ofEvent? generation event).bind SessionEntry.batch?

theorem handled_logOf (past : History) (generation : Nat) :
    handled (past.logOf generation) = past.filterMap (handledIn? generation) :=
  List.filterMap_filterMap

theorem handled_logOf_concat (past : History) (event : Event DaemonClient Action Output) :
    handled (History.logOf (past ++ [event]) generation)
      = handled (past.logOf generation) ++ (handledIn? generation event).toList := by
  rw [handled_logOf, handled_logOf, List.filterMap_append]
  cases h : handledIn? generation event <;> simp [h]

/-- Other parties handle no answers of a process. -/
theorem handledIn?_of_other {event : Event DaemonClient Action Output}
    (hother : ∀ action, event.action ≠ .link generation action) :
    handledIn? generation event = none := by
  unfold handledIn? SessionEntry.ofEvent?
  split
  · split <;> rfl
  · split <;> rfl
  · rename_i acting action haction
    have hne : acting ≠ generation := fun heq => hother action (heq ▸ haction)
    rw [if_neg fun hin => hne hin.1]
    rfl
  · rfl

/-- Only a session handles answers. -/
theorem handledIn?_of_not_inSession {event : Event DaemonClient Action Output}
    (hout : event.before.inSession generation = false) : handledIn? generation event = none := by
  unfold handledIn? SessionEntry.ofEvent?
  split
  · split <;> rfl
  · split <;> rfl
  · rw [if_neg (by simp [hout])]
    rfl
  · rfl

/-- What is known of the answers of a session: while it lasts, the answers that the reader has gone
on to are those that were handled. -/
structure Handles (generation : Nat) (past : History) (client : DaemonClient) : Prop
    extends Reads generation past client where
  unbegun : client.generation < generation → handled (past.logOf generation) = []
  handled : client.inSession generation = true →
    handled (past.logOf generation) = batchesOf (past.linesRead generation)

namespace Handles

variable {past : History}

theorem initial (settings : DaemonSettings) (generation : Nat) :
    Handles generation [] (ofSettings settings) where
  toReads := .initial settings generation
  unbegun _ := rfl
  handled _ := rfl

/-- In a session, an answer is handled when the reader goes on to its end. -/
theorem concat (h : Handles generation past client) (hstep : Step client action next told)
    (hin : client.inSession generation = true) :
    DaemonClient.handled (History.logOf (past ++ [⟨client, action, next, told⟩]) generation)
      = batchesOf (History.linesRead (past ++ [⟨client, action, next, told⟩]) generation) := by
  by_cases hacts : ∃ linkAction, action = .link generation linkAction
  · obtain ⟨linkAction, rfl⟩ := hacts
    obtain ⟨link, changed, notice, hlink, hact⟩ := hstep.exists_act
    have hread := (h.reading link hlink).batchesOf_step hact
    have hline : lineOf? generation ⟨client, .link generation linkAction, next, told⟩
        = link.passed? linkAction := by
      simp [lineOf?, hlink]
    have hgiven : handledIn? generation ⟨client, .link generation linkAction, next, told⟩
        = notice.bind Link.Notice.batch? := by
      rw [handledIn?, Paired.ofEvent?_link hlink hact, if_pos ⟨rfl, hin⟩, Option.bind_map]
      cases notice.bind Link.Notice.batch? <;> rfl
    rw [handled_logOf_concat, linesRead_concat, hline, hgiven, hread, h.handled hin]
  · have hother : ∀ linkAction, action ≠ .link generation linkAction := fun linkAction heq =>
      hacts ⟨linkAction, heq⟩
    have hlines := (read_concat_of_other past ⟨client, action, next, told⟩ hother).2
    rw [handled_logOf_concat, handledIn?_of_other hother, Option.toList_none, List.append_nil,
      hlines, h.handled hin]

/-- Every step keeps answers that are read and answers that are handled together. -/
theorem step (h : Handles generation past client) (hclient : client.Coherent)
    (hstep : Step client action next told) :
    Handles generation (past ++ [⟨client, action, next, told⟩]) next := by
  have hother : client.generation < generation →
      ∀ linkAction, action ≠ .link generation linkAction := by
    rintro hlt linkAction rfl
    obtain ⟨link, -, -, hlink, -⟩ := hstep.exists_act
    exact nomatch hlink.symm.trans (hclient.link?_eq_none hlt)
  have hnothing : client.generation < generation → DaemonClient.handled
      (History.logOf (past ++ [⟨client, action, next, told⟩]) generation) = [] := by
    intro hlt
    rw [handled_logOf_concat, handledIn?_of_other (hother hlt), h.unbegun hlt]
    rfl
  refine ⟨h.toReads.step hstep, fun hlt => ?_, fun hin => ?_⟩
  · exact hnothing (Nat.lt_of_le_of_lt hstep.generation_le hlt)
  · rcases hstep.inSession_next hin with hbefore | hnew
    · exact h.concat hstep hbefore
    · -- A session that has just begun has handled nothing, and nothing was read.
      rw [hnothing hnew,
        (read_concat_of_other past ⟨client, action, next, told⟩ (hother hnew)).2,
        (h.absent (hclient.link?_eq_none hnew)).2]
      rfl

/-- After every history the answers that were read in a session were handled in it. -/
theorem of_run {settings : DaemonSettings} {actions : List Action}
    (hrun : (ofSettings settings).run? actions = some (client, told)) (generation : Nat) :
    Handles generation ((ofSettings settings).history actions) client :=
  history_invariant (fun _ _ _ _ _ hclient h hstep => h.step hclient hstep)
    (initial settings generation) hrun

end Handles

/-- After every history, whether its session lasts or not, what was handled of the answers of a
process are the first of those that it wrote. -/
theorem handled_prefix_of_run {settings : DaemonSettings} {actions : List Action}
    (hrun : (ofSettings settings).run? actions = some (client, told)) (generation : Nat) :
    handled (((ofSettings settings).history actions).logOf generation)
      <+: batchesOf (LineBuffer.linesOf
        (((ofSettings settings).history actions).bytesWritten generation)) := by
  have hread := history_invariant
    (P := fun past client => Handles generation past client ∧
      handled (past.logOf generation) <+: batchesOf (past.linesRead generation))
    (fun past client action next told hclient h hstep => by
      refine ⟨h.1.step hclient hstep, ?_⟩
      cases hin : client.inSession generation with
      | true => rw [h.1.concat hstep hin]
      | false =>
          rw [handled_logOf_concat, handledIn?_of_not_inSession hin, Option.toList_none,
            List.append_nil, linesRead_concat]
          exact h.2.trans (batchesOf_mono (List.prefix_append _ _)))
    ⟨.initial settings generation, List.prefix_refl _⟩ hrun
  exact hread.2.trans (batchesOf_mono hread.1.prefix_linesOf)

/-! ## The session at the report -/

/-- The session of a generation lasts until a call stops it or the end of its process is
reported. -/
theorem Step.inSession_kept (h : Step client action next told) (hclient : client.Coherent)
    (hin : client.inSession generation = true) :
    next.inSession generation = true ∨ action = .stop ∨ action = .link generation .report := by
  have hup : client.IsUp := by
    obtain ⟨session, hsession, -⟩ := (Option.any_eq_true _ _).1 hin
    exact .inr (hclient.status_of_session hsession)
  cases h with
  | start _ hdown | restart _ _ hdown => exact absurd hup hdown
  | stopNothing | stop => exact .inr (.inl rfl)
  | accept _ session _ _ hsession | answer _ _ _ _ session _ _ _ _ hsession =>
      refine .inl ?_
      rw [inSession, hsession] at hin
      exact hin
  | abandon request =>
      refine .inl ?_
      show (client.session.map (·.abandon request)).any (·.generation = generation) = true
      rw [Option.any_map]
      exact hin
  | exit acting _ session _ _ hsession hsame | crash acting _ _ session _ _ _ hsession hsame =>
      rw [inSession, hsession] at hin
      have hgeneration : acting = generation := hsame.symm.trans (of_decide_eq_true hin)
      exact .inr (.inr (by rw [hgeneration]))
  | startUp | dismiss | stopReturns | refuse | timerDue | timerLate | restartUp | link | unasked =>
      exact .inl hin

/-- A process that was started has the session. -/
theorem Step.inSession_begun (h : Step client action next told) {link : Link}
    (hnone : client.link? generation = none) (hlink : next.link? generation = some link) :
    next.inSession generation = true := by
  have hattempt : ∀ (base : DaemonClient) (result : Except SystemError Unit),
      base.link? generation = none → (base.attempt result).link? generation = some link →
      (base.attempt result).inSession generation = true := by
    intro base result hnone hlink
    rcases base.attempt_cases result with ⟨-, -, heq⟩ | ⟨-, -, heq⟩ | ⟨-, -, heq⟩
    · rw [heq] at hlink ⊢
      have hnew : (base.links ++ [Link.fresh (base.generation + 1)]).find?
          (·.generation = generation) = some link := hlink
      rw [List.find?_append, show base.links.find? _ = none from hnone, Option.none_or] at hnew
      have hsame := List.find?_some hnew
      rw [List.mem_singleton.1 (List.mem_of_find?_eq_some hnew)] at hsame
      exact hsame
    · rw [heq] at hlink
      exact nomatch hnone.symm.trans hlink
    · rw [heq] at hlink
      exact nomatch hnone.symm.trans hlink
  have hset : ∀ changed : Link, (client.setLink changed).link? generation = none := by
    intro changed
    rw [link?_setLink, hnone]
    rfl
  cases h with
  | start result => exact hattempt _ result hnone hlink
  | restart result =>
      exact hattempt { client with restarting := client.restarting - 1 } result hnone hlink
  | startUp | stopNothing | stop | stopReturns | refuse | abandon | timerDue | timerLate
  | restartUp => exact nomatch hnone.symm.trans hlink
  | dismiss index session =>
      have hnot : (client.dismissLink session.generation).link? generation = none := by
        rw [link?_dismissLink, hnone]
        rfl
      exact nomatch hnot.symm.trans hlink
  | accept | link | answer | unasked => exact nomatch (hset _).symm.trans hlink
  | exit acting | crash acting =>
      have hnot : ∀ changed : Link,
          ((client.setLink changed).dismissLink acting).link? generation = none := by
        intro changed
        rw [link?_dismissLink, hset]
        rfl
      exact nomatch (hnot _).symm.trans hlink

/-- A call to stop the daemon took the session of a generation. -/
def History.Stopped (past : History) (generation : Nat) : Prop :=
  ∃ event ∈ past, event.action = .stop ∧ event.before.inSession generation = true

/-- A process whose end was not reported has the session, unless a call stopped it. -/
def Lasts (past : History) (client : DaemonClient) : Prop :=
  ∀ generation link, client.link? generation = some link → link.isReported = false →
    client.inSession generation = true ∨ past.Stopped generation

namespace Lasts

variable {past : History}

/-- Every step leaves a process its session, stops it or reports its end. -/
theorem step (h : Lasts past client) (hclient : client.Coherent)
    (hstep : Step client action next told) :
    Lasts (past ++ [⟨client, action, next, told⟩]) next := by
  intro generation link hlink hopen
  have hkept : client.inSession generation = true ∨ past.Stopped generation →
      action ≠ .link generation .report → next.inSession generation = true ∨
        History.Stopped (past ++ [⟨client, action, next, told⟩]) generation := by
    rintro (hin | ⟨event, hevent, hstopped⟩) hreport
    · rcases hstep.inSession_kept hclient hin with hstill | rfl | hnow
      · exact .inl hstill
      · exact .inr ⟨_, List.mem_append_right _ (List.mem_singleton_self _), rfl, hin⟩
      · exact absurd hnow hreport
    · exact .inr ⟨event, List.mem_append_left _ hevent, hstopped⟩
  have hlinkStep := hstep.linkStep generation
  rw [hlink] at hlinkStep
  cases hlinkStep with
  | begun _ hnone => exact .inl (hstep.inSession_begun hnone hlink)
  | kept _ old _ hold hother => exact hkept (h generation old hold hopen) (hother .report)
  | sent _ old hold => exact hkept (h generation old hold hopen) nofun
  | acted linkAction old changed _ _ hold hact =>
      -- The watch did not report before, and does not do so now.
      have hsilent : changed.isReported = false := hopen
      have hnot : ¬ (old.isReported = true ∨ linkAction = .report) := fun hreported =>
        nomatch hsilent.symm.trans (Link.isReported_of_step hact hreported)
      refine hkept (h generation old hold (Bool.eq_false_iff.2 fun hwas => hnot (.inl hwas))) ?_
      rintro ⟨⟩
      exact hnot (.inr rfl)

/-- After every history a process whose end was not reported has the session, unless a call stopped
it. -/
theorem of_run {settings : DaemonSettings} {actions : List Action}
    (hrun : (ofSettings settings).run? actions = some (client, told)) :
    Lasts ((ofSettings settings).history actions) client :=
  history_invariant (fun _ _ _ _ _ hclient h hstep => h.step hclient hstep)
    (fun _ _ hlink => nomatch hlink) hrun

end Lasts

/-! ## The report -/

/-- What a log says was told was told. -/
theorem mem_answers_of_handled {past : History} {batch : Batch} {given : List Output}
    {answer : Answer Nat} (h : .handled batch given ∈ past.logOf generation)
    (hanswer : .answered answer ∈ given) : answer ∈ past.answers := by
  obtain ⟨event, hevent, hentry⟩ := List.mem_filterMap.1 h
  have htold : event.told = given := by
    unfold SessionEntry.ofEvent? at hentry
    split at hentry
    · exact nomatch (Option.ite_none_right_eq_some.1 hentry).2
    · exact nomatch (Option.ite_none_right_eq_some.1 hentry).2
    · obtain ⟨-, hentry⟩ := Option.ite_none_right_eq_some.1 hentry
      obtain ⟨other, -, hsame⟩ := Option.map_eq_some_iff.1 hentry
      cases hsame
      rfl
    · exact nomatch hentry
  exact List.mem_flatMap.2 ⟨event, hevent, List.mem_filterMap.2 ⟨_, htold ▸ hanswer, rfl⟩⟩

/-- What becomes of the requests of a session when the end of its process is reported: `past` is
what happened before the report, and `told` what the report tells. -/
structure EndsSession (past : History) (generation : Nat) (told : List Output) : Prop where
  /-- The answers that were handled are those that the reader had gone on to. -/
  handled : handled (past.logOf generation) = batchesOf (past.linesRead generation)
  read : past.linesRead generation <+: LineBuffer.linesOf (past.bytesWritten generation)
  /-- The requests that still wait get empty answers. -/
  dropped : told = (waiting (past.logOf generation)).map fun waiter => .answered (waiter.answer [])
  /-- When the process never answered more than it was asked, a request has got the answer at its
  place if that one was read in time, and gets an empty one otherwise. -/
  placed : NeverAhead (past.logOf generation) → ∀ (place request : Nat) (fields : List String),
    (accepted (past.logOf generation))[place]? = some (request, fields) →
    (∀ batch, (batchesOf (past.linesRead generation))[place]? = some batch →
      ∃ heard, ⟨request, batch, heard⟩ ∈ past.answers ∧
        (request ∉ abandoned (past.logOf generation) → heard = true)) ∧
    ((batchesOf (past.linesRead generation)).length ≤ place →
      .answered ⟨request, [], decide (request ∉ abandoned (past.logOf generation))⟩ ∈ told)

/-- The report of the end of a process whose session is there drains the session, whatever is known
of the end. -/
theorem Step.told_of_report (h : Step client (.link generation .report) next told)
    (hin : client.inSession generation = true) :
    ∃ session, client.session = some session ∧ session.generation = generation ∧
      told = session.drained := by
  cases h with
  | link _ _ link changed notice hlink hstep hquiet =>
      -- A report is a notice, so the client has no session for the process.
      rcases hquiet with rfl | hout
      · obtain ⟨waited, -, -, hnotice⟩ := Link.eq_of_report hstep
        exact nomatch hnotice
      · exact nomatch hin.symm.trans hout
  | exit _ _ session _ _ hsession hsame | crash _ _ _ session _ _ _ hsession hsame =>
      exact ⟨session, hsession, hsame, rfl⟩

/-- When the process never answered more than it was asked, the answer at a place was given to the
request at that place. -/
theorem Paired.given_at {log : List SessionEntry} (h : Paired generation log client)
    (hahead : NeverAhead log) {place request : Nat} {fields : List String} {batch : Batch}
    (hrequest : (accepted log)[place]? = some (request, fields))
    (hbatch : (handled log)[place]? = some batch) :
    ∃ given heard, .handled batch given ∈ log ∧ .answered ⟨request, batch, heard⟩ ∈ given ∧
      (request ∉ abandoned log → heard = true) := by
  obtain ⟨earlier, given, later, rfl, rfl⟩ := exists_handled_at hbatch
  obtain ⟨oldest, asked, hget, htold⟩ := h.handled_at hahead
  cases hrequest.symm.trans hget
  refine ⟨given, decide (request ∉ abandoned earlier),
    List.mem_append_right _ List.mem_cons_self, ?_, fun hlistens => ?_⟩
  · rw [htold]
    exact List.mem_singleton_self _
  · refine decide_eq_true fun hleft => hlistens ?_
    rw [abandoned, List.filterMap_append]
    exact List.mem_append_left _ hleft

/-- The request at a place that no answer has come to still waits. -/
theorem Paired.waits_at {log : List SessionEntry} (h : Paired generation log client)
    (hahead : NeverAhead log) {place request : Nat} {fields : List String}
    (hrequest : (accepted log)[place]? = some (request, fields))
    (hlate : (handled log).length ≤ place) :
    ⟨request, decide (request ∉ abandoned log)⟩ ∈ waiting log := by
  have hrest := unanswered_eq_drop h.nodup (answered_eq_take h.fifo hahead h.nodup)
  refine List.mem_map.2 ⟨request, ?_, rfl⟩
  have hplace : (requests log)[place]? = some request := by
    rw [requests, List.getElem?_map, hrequest]
    rfl
  rw [hrest]
  refine List.mem_of_getElem? (i := place - (handled log).length) ?_
  rw [List.getElem?_drop, Nat.add_sub_cancel' hlate, hplace]

/-- A report that meets its session drains it, after the answers that were read in time. -/
theorem EndsSession.of_report {past : History} (hreads : Handles generation past client)
    (hpaired : Paired generation (past.logOf generation) client)
    (h : Step client (.link generation .report) next told)
    (hin : client.inSession generation = true) : EndsSession past generation told := by
  obtain ⟨session, hsession, hsame, rfl⟩ := h.told_of_report hin
  have hdropped : session.drained
      = (waiting (past.logOf generation)).map fun waiter => .answered (waiter.answer []) := by
    rw [← hpaired.queue session hsession hsame]
    exact List.map_map
  have hhandled := hreads.handled hin
  refine ⟨hhandled, hreads.prefix_linesOf, hdropped,
    fun hahead place request fields hplace => ⟨fun batch hbatch => ?_, fun hlate => ?_⟩⟩
  · rw [← hhandled] at hbatch
    obtain ⟨given, heard, hentry, hgiven, hlistens⟩ := hpaired.given_at hahead hplace hbatch
    exact ⟨heard, mem_answers_of_handled hentry hgiven, hlistens⟩
  · rw [← hhandled] at hlate
    rw [hdropped]
    exact List.mem_map.2 ⟨_, hpaired.waits_at hahead hplace hlate, rfl⟩

/-- The end of a process is reported whose session no call has stopped, whatever is known of the
end and however far the reader has come. The answers that the reader had gone on to were given to
their requests, and each request without one gets an empty answer, whatever the process had
written. -/
theorem answers_read_in_time {settings : DaemonSettings} {actions : List Action}
    {past later : History} {event : Event DaemonClient Action Output} {generation : Nat}
    (hpast : (ofSettings settings).history actions = past ++ event :: later)
    (hreport : event.action = .link generation .report) (hstop : ¬ past.Stopped generation) :
    EndsSession past generation event.told := by
  obtain ⟨before, outputs, hbefore, rfl, hstep⟩ := Machine.exists_run_of_append step? hpast
  rw [hreport] at hstep
  have hrule := Step.of_step? hstep
  obtain ⟨link, changed, notice, hlink, hact⟩ := hrule.exists_act
  obtain ⟨waited, hwatch, -, -⟩ := Link.eq_of_report hact
  have hopen : link.isReported = false := by rw [Link.isReported, hwatch]
  have hin := (Lasts.of_run hbefore generation link hlink hopen).resolve_right hstop
  exact .of_report (.of_run hbefore generation) (.of_run hbefore generation) hrule hin

/-- The events of actions of which none stops the daemon stop no session. -/
theorem not_stopped {settings : DaemonSettings} {actions : List Action}
    (hrun : ((ofSettings settings).run? actions).isSome = true) (hstop : .stop ∉ actions) :
    ¬ ((ofSettings settings).history actions).Stopped generation := by
  rintro ⟨event, hevent, haction, -⟩
  obtain ⟨reply, hrun⟩ := Option.isSome_iff_exists.1 hrun
  refine hstop ?_
  rw [← Machine.map_action_trace step? hrun, ← haction]
  exact List.mem_map_of_mem hevent

/-- A process crashes that has answered two requests. One answer was read before the report, and
the other request gets an empty answer. -/
theorem answers_read_in_time_crash :
    let before : List Action :=
      [.start (.ok ()), .request ["a"], .request ["b"],
        .link 1 (.produce [120, 10, 69, 78, 68, 10]), .link 1 (.read 6), .link 1 .push,
        .link 1 .push, .link 1 (.produce [121, 10, 69, 78, 68, 10]),
        .link 1 (.childEnds (some 3)), .link 1 .observeEnd]
    let past := (ofSettings .standard).history before
    ∃ event, (ofSettings .standard).history (before ++ [.link 1 .report]) = past ++ [event] ∧
      event.action = .link 1 .report ∧ ¬ past.Stopped 1 ∧ EndsSession past 1 event.told ∧
      past.answers = [⟨0, ["x"], true⟩] ∧ event.told = [.answered ⟨1, [], true⟩] := by
  intro before past
  have hstop : ¬ past.Stopped 1 := not_stopped rfl (by simp [before])
  have hpast : (ofSettings .standard).history (before ++ [.link 1 .report]) = past ++ [_] := rfl
  exact ⟨_, hpast, rfl, hstop, answers_read_in_time hpast rfl hstop, rfl, rfl⟩

/-- A process writes the whole answer to its only request and ends well. The end is reported before
the reader goes on to the answer, so the request gets an empty one, and the answer goes to
nobody. -/
theorem answer_lost :
    let actions : List Action :=
      [.start (.ok ()), .request ["a"], .link 1 (.produce [120, 10, 69, 78, 68, 10]),
        .link 1 (.childEnds (some 0)), .link 1 .observeEnd, .link 1 .report, .link 1 (.read 6),
        .link 1 .push, .link 1 .push]
    let past := (ofSettings .standard).history actions
    ((ofSettings .standard).run? actions).isSome = true ∧ ¬ past.Stopped 1 ∧
      past.requestsOf 1 = [0] ∧ batchesOf (LineBuffer.completed (past.bytesWritten 1)) = [["x"]] ∧
      past.linesRead 1 = ["x", "END"] ∧ past.answers = [⟨0, [], true⟩] := by
  intro actions past
  exact ⟨rfl, not_stopped rfl (by simp [actions]), rfl, by decide +kernel, rfl, rfl⟩

end DaemonClient

end Toolbench
