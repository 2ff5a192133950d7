import Mathlib.Data.List.DropRight
import Toolbench.Proofs.Daemon.Accounting
import Toolbench.Proofs.Stream.Chunks

/-!
# What a reader passes on

Every link has its own reader. `Link.Reading` says how the lines that a reader has gone on to come
from the bytes of its process, and that it holds exactly the lines since the last end of an answer;
`Link.Reading.answered` says that a complete answer is these lines. A reader that has seen the end
of the stream has all its lines (`Link.AtEnd`). `LinkStep` lists what can happen to the link of one
generation, and `Reads.of_run` carries `Link.Reading` through histories.
-/

namespace Toolbench

namespace Link

/-- The bytes that the process writes in an action. -/
def Action.bytes : Action → List UInt8
  | .produce bytes => bytes
  | _ => []

/-- The line that the reader goes on to in an action. -/
def passed? (link : Link) : Action → Option String
  | .push => link.ready.head?
  | _ => none

/-- The lines since the last one that ends an answer. -/
def sinceLastEnd (lines : List String) : List String :=
  lines.rtakeWhile fun line => !endsBatch line

/-- A buffer that holds the lines since the last end still does so with a line more. -/
theorem held_push {lines : List String} {buffer : BatchBuffer}
    (h : buffer.linesReversed.reverse = sinceLastEnd lines) (line : String) :
    (buffer.push line).2.linesReversed.reverse = sinceLastEnd (lines ++ [line]) := by
  rw [sinceLastEnd, List.rtakeWhile_concat]
  by_cases hends : endsBatch line = true
  · simp [BatchBuffer.push, hends, BatchBuffer.empty]
  · simp [BatchBuffer.push, hends, h, sinceLastEnd]

section Reader

variable {bytes : List UInt8} {lines : List String} {link next : Link} {action : Action}
  {notice : Option Notice}

/-- Links that do not differ in anything that concerns the reader. -/
structure SameReader (link next : Link) : Prop where
  unread : next.unread = link.unread
  outputOpen : next.outputOpen = link.outputOpen
  buffer : next.buffer = link.buffer
  ready : next.ready = link.ready
  batches : next.batches = link.batches
  reading : next.reading = link.reading

/-- What a process has written can still be read when it has ended. -/
theorem sameReader_of_childEnds {code : Option Int}
    (hstep : link.childStep? (.childEnds code) = some next) : SameReader link next := by
  simp only [Link.childStep?] at hstep
  split at hstep
  · cases hstep
    exact ⟨rfl, rfl, rfl, rfl, rfl, rfl⟩
  · cases hstep

/-- A step is one of the process, which alone writes, one of the reader, which alone goes on to
lines, or does not concern the reader. -/
theorem step?_cases (hstep : link.step? action = some (next, notice)) :
    (link.childStep? action = some next ∧ link.passed? action = none) ∨
    (link.readerStep? action = some (next, notice) ∧ action.bytes = []) ∨
    (SameReader link next ∧ action.bytes = [] ∧ link.passed? action = none) := by
  cases action <;> simp only [Link.step?, Option.map_eq_some_iff, Prod.mk.injEq] at hstep
  case produce | closeOutput | childEnds =>
    obtain ⟨_, hchild, rfl, -⟩ := hstep
    exact .inl ⟨hchild, rfl⟩
  case read | readEnd | readFails | push => exact .inr (.inl ⟨hstep, rfl⟩)
  case write | writeFails | closeInput =>
    obtain ⟨_, hwriter, rfl, -⟩ := hstep
    obtain ⟨written, writing, rfl⟩ := eq_of_writerStep? hwriter
    exact .inr (.inr ⟨⟨rfl, rfl, rfl, rfl, rfl, rfl⟩, rfl, rfl⟩)
  case notice | graceOver | observeEnd | loseTrack | report =>
    obtain ⟨watch, rfl⟩ := eq_of_watchStep? hstep
    exact .inr (.inr ⟨⟨rfl, rfl, rfl, rfl, rfl, rfl⟩, rfl, rfl⟩)

/-- A line that the reader goes on to was the first of those that it had. -/
theorem concat_append_ready {line : String} {ready : List String}
    (hready : link.ready = line :: ready) : lines ++ [line] ++ ready = lines ++ link.ready := by
  rw [hready, List.append_assoc, List.singleton_append]

/-- A reader that has seen the end has the lines of the whole stream. -/
structure AtEnd (bytes : List UInt8) (lines : List String) (link : Link) : Prop where
  ended : link.reading = false
  closed : link.outputOpen = false
  source : lines ++ link.ready = LineBuffer.linesOf bytes

namespace AtEnd

/-- What is requested, written to the process or known of its end does not concern the reader. -/
theorem congr (h : AtEnd bytes lines link) (hsame : SameReader link next) :
    AtEnd bytes lines next where
  ended := hsame.reading.trans h.ended
  closed := hsame.outputOpen.trans h.closed
  source := by
    rw [hsame.ready]
    exact h.source

/-- The process writes nothing any more. -/
theorem childStep? (h : AtEnd bytes lines link) (hstep : link.childStep? action = some next) :
    AtEnd (bytes ++ action.bytes) lines next := by
  cases action with
  | produce more =>
      obtain ⟨hopen, -⟩ := Option.ite_none_right_eq_some.1 hstep
      exact nomatch hopen.symm.trans h.closed
  | closeOutput =>
      cases hstep
      show AtEnd (bytes ++ []) lines _
      rw [List.append_nil]
      exact ⟨h.ended, rfl, h.source⟩
  | childEnds code =>
      show AtEnd (bytes ++ []) lines next
      rw [List.append_nil]
      exact h.congr (sameReader_of_childEnds hstep)
  | _ => cases hstep

/-- The reader goes on to the lines that it has, and reads nothing any more. -/
theorem readerStep? (h : AtEnd bytes lines link)
    (hstep : link.readerStep? action = some (next, notice)) :
    AtEnd bytes (lines ++ (link.passed? action).toList) next := by
  cases action with
  | read | readEnd | readFails => simp [Link.readerStep?, h.ended] at hstep
  | push =>
      simp only [Link.readerStep?] at hstep
      split at hstep
      · cases hstep
      · rename_i line ready hready
        cases hstep
        rw [passed?, hready]
        exact ⟨h.ended, h.closed, (concat_append_ready hready).trans h.source⟩
  | _ => cases hstep

/-- After the end nothing is written or read any more; the reader goes on to the lines it has. -/
theorem step? (h : AtEnd bytes lines link) (hstep : link.step? action = some (next, notice)) :
    AtEnd (bytes ++ action.bytes) (lines ++ (link.passed? action).toList) next := by
  rcases step?_cases hstep with ⟨hchild, hpassed⟩ | ⟨hreader, hbytes⟩ | ⟨hsame, hbytes, hpassed⟩
  · simpa [hpassed] using h.childStep? hchild
  · simpa [hbytes] using h.readerStep? hreader
  · simpa [hbytes, hpassed] using h.congr hsame

end AtEnd

/-- How far a reader has come: the process has written these bytes, and the reader has gone on to
these lines. -/
structure Reading (bytes : List UInt8) (lines : List String) (link : Link) : Prop where
  held : link.batches.linesReversed.reverse = sinceLastEnd lines
  /-- The reader has taken a first part of the bytes, or all of them when it has seen the end. -/
  source :
    (∃ taken, bytes = taken ++ link.unread ∧
      lines ++ link.ready = LineBuffer.completed taken ∧
      (link.reading = true → link.buffer.Follows taken)) ∨
    AtEnd bytes lines link

namespace Reading

/-- A process that was just started has written nothing. -/
theorem fresh (generation : Nat) : Reading [] [] (.fresh generation) where
  held := rfl
  source := .inl ⟨[], rfl, rfl, fun _ => LineBuffer.follows_empty⟩

/-- The lines are first lines of what the process wrote. -/
theorem prefix_linesOf (h : Reading bytes lines link) : lines <+: LineBuffer.linesOf bytes := by
  rcases h.source with ⟨taken, rfl, hlines, -⟩ | hend
  · refine (List.prefix_append lines link.ready).trans ?_
    rw [hlines]
    exact LineBuffer.completed_prefix_linesOf taken link.unread
  · rw [← hend.source]
    exact List.prefix_append lines link.ready

/-- While the reader has not seen the end, it has taken a first part of the bytes. -/
theorem exists_taken (h : Reading bytes lines link) (hreading : link.reading = true) :
    ∃ taken, bytes = taken ++ link.unread ∧ lines ++ link.ready = LineBuffer.completed taken ∧
      link.buffer.Follows taken := by
  rcases h.source with ⟨taken, hbytes, hlines, hfollows⟩ | hend
  · exact ⟨taken, hbytes, hlines, hfollows hreading⟩
  · exact nomatch hreading.symm.trans hend.ended

/-- What is requested, written to the process or known of its end does not concern the reader. -/
theorem congr (h : Reading bytes lines link) (hsame : SameReader link next) :
    Reading bytes lines next where
  held := by
    rw [hsame.batches]
    exact h.held
  source := by
    refine h.source.imp ?_ (·.congr hsame)
    rw [hsame.unread, hsame.buffer, hsame.ready, hsame.reading]
    exact id

/-- Steps of the process: what it writes is read later. -/
theorem childStep? (h : Reading bytes lines link) (hstep : link.childStep? action = some next) :
    Reading (bytes ++ action.bytes) lines next := by
  have hended : AtEnd bytes lines link → AtEnd (bytes ++ action.bytes) lines next :=
    fun hend => hend.childStep? hstep
  cases action with
  | produce more =>
      obtain ⟨-, hstep⟩ := Option.ite_none_right_eq_some.1 hstep
      cases hstep
      refine ⟨h.held, h.source.imp ?_ hended⟩
      rintro ⟨taken, rfl, hlines, hfollows⟩
      exact ⟨taken, List.append_assoc taken link.unread more, hlines, hfollows⟩
  | closeOutput =>
      cases hstep
      refine ⟨h.held, h.source.imp ?_ hended⟩
      rintro ⟨taken, rfl, htaken⟩
      exact ⟨taken, List.append_nil _, htaken⟩
  | childEnds code =>
      show Reading (bytes ++ []) lines next
      rw [List.append_nil]
      exact h.congr (sameReader_of_childEnds hstep)
  | _ => cases hstep

/-- The reader sees the end when it has taken everything. -/
theorem atEnd (h : Reading bytes lines link)
    (hstep : link.readerStep? .readEnd = some (next, notice)) : AtEnd bytes lines next := by
  obtain ⟨henabled, heq⟩ := Option.ite_none_right_eq_some.1 hstep
  cases heq
  simp only [Bool.and_eq_true, List.isEmpty_iff, Bool.not_eq_true'] at henabled
  obtain ⟨⟨⟨hreading, hready⟩, hunread⟩, hclosed⟩ := henabled
  obtain ⟨taken, rfl, hlines, hfollows⟩ := h.exists_taken hreading
  rw [hready, List.append_nil] at hlines
  refine ⟨rfl, hclosed, ?_⟩
  show lines ++ link.buffer.finish.1.toList = _
  rw [hunread, List.append_nil, ← hfollows.finish, hlines]

/-- Steps of the reader. A line that ends an answer is the last one of those held. -/
theorem readerStep? (h : Reading bytes lines link)
    (hstep : link.readerStep? action = some (next, notice)) :
    Reading bytes (lines ++ (link.passed? action).toList) next := by
  have hended : AtEnd bytes lines link →
      AtEnd bytes (lines ++ (link.passed? action).toList) next :=
    fun hend => hend.readerStep? hstep
  cases action with
  | read count =>
      obtain ⟨henabled, hstep⟩ := Option.ite_none_right_eq_some.1 hstep
      cases hstep
      simp only [Bool.and_eq_true, List.isEmpty_iff] at henabled
      obtain ⟨⟨hreading, hready⟩, -⟩ := henabled
      obtain ⟨taken, rfl, hlines, hfollows⟩ := h.exists_taken hreading
      obtain ⟨hmore, hnext⟩ := hfollows.feed (link.unread.take count)
      show Reading _ (lines ++ []) _
      rw [List.append_nil]
      refine ⟨h.held, .inl ⟨taken ++ link.unread.take count, ?_, ?_, fun _ => hnext⟩⟩
      · rw [List.append_assoc, List.take_append_drop]
      · show lines ++ (link.buffer.feed (link.unread.take count)).1 = _
        rw [hmore, ← hlines, hready, List.append_nil]
  | readEnd =>
      have hend := h.atEnd hstep
      obtain ⟨-, hstep⟩ := Option.ite_none_right_eq_some.1 hstep
      cases hstep
      show Reading bytes (lines ++ []) _
      rw [List.append_nil]
      exact ⟨h.held, .inr hend⟩
  | readFails =>
      obtain ⟨-, hstep⟩ := Option.ite_none_right_eq_some.1 hstep
      cases hstep
      refine ⟨by simpa [passed?] using h.held, h.source.imp ?_ hended⟩
      rintro ⟨taken, hbytes, hlines, -⟩
      exact ⟨taken, hbytes, by simpa [passed?] using hlines, fun hstill => nomatch hstill⟩
  | push =>
      simp only [Link.readerStep?] at hstep
      split at hstep
      · cases hstep
      · rename_i line ready hready
        cases hstep
        rw [passed?, hready] at hended ⊢
        refine ⟨held_push h.held line, h.source.imp ?_ hended⟩
        rintro ⟨taken, hbytes, hlines, hfollows⟩
        exact ⟨taken, hbytes, (concat_append_ready hready).trans hlines, hfollows⟩
  | _ => cases hstep

/-- Whatever happens to a link, its reader stays with the bytes of its process. -/
theorem step? (h : Reading bytes lines link) (hstep : link.step? action = some (next, notice)) :
    Reading (bytes ++ action.bytes) (lines ++ (link.passed? action).toList) next := by
  rcases step?_cases hstep with ⟨hchild, hpassed⟩ | ⟨hreader, hbytes⟩ | ⟨hsame, hbytes, hpassed⟩
  · simpa [hpassed] using h.childStep? hchild
  · simpa [hbytes] using h.readerStep? hreader
  · simpa [hbytes, hpassed] using h.congr hsame

/-- A complete answer is what the process wrote since the answer before, up to a line that ends
it. -/
theorem answered {batch : Batch} (h : Reading bytes lines link)
    (hstep : link.step? action = some (next, some (.answered batch))) :
    batch = sinceLastEnd lines ∧
      ∃ last, link.passed? action = some last ∧ endsBatch last = true := by
  obtain ⟨rfl, line, ready, hready, hends, rfl, -⟩ := eq_push_of_answered hstep
  refine ⟨h.held, line, ?_, hends⟩
  rw [passed?, hready]
  rfl

end Reading

end Reader

end Link

namespace DaemonClient

open Machine (Event)

variable {client next : DaemonClient} {generation : Nat} {action : Action} {told : List Output}

/-! ## The link of one generation -/

/-- A link in the place of another one is found. -/
theorem link?_setLink_same {link changed : Link} (hlink : client.link? generation = some link)
    (hsame : changed.generation = generation) :
    (client.setLink changed).link? generation = some changed := by
  rw [link?_setLink, hlink, Option.map_some, if_pos]
  rw [generation_of_link? hlink, hsame]

/-- All other links stay as they are. -/
theorem link?_setLink_other {changed : Link} (hother : changed.generation ≠ generation) :
    (client.setLink changed).link? generation = client.link? generation := by
  rw [link?_setLink]
  cases hfound : client.link? generation with
  | none => rfl
  | some link =>
      have hne : link.generation ≠ changed.generation := by
        rw [generation_of_link? hfound]
        exact hother.symm
      rw [Option.map_some, if_neg hne]

/-- A process that was started has a new link if it has no other one. -/
theorem link?_attempt (client : DaemonClient) (result : Except SystemError Unit)
    (generation : Nat) :
    (client.attempt result).link? generation = client.link? generation ∨
      client.link? generation = none ∧
        (client.attempt result).link? generation = some (.fresh generation) := by
  rcases client.attempt_cases result with ⟨-, -, heq⟩ | ⟨-, -, heq⟩ | ⟨-, -, heq⟩
  · rw [heq]
    show (client.links ++ [Link.fresh (client.generation + 1)]).find? _ = _ ∨ _ ∧
      (client.links ++ [Link.fresh (client.generation + 1)]).find? _ = _
    rw [List.find?_append]
    cases hfound : client.link? generation with
    | some link =>
        left
        rw [show client.links.find? _ = some link from hfound]
        rfl
    | none =>
        rw [show client.links.find? _ = none from hfound, Option.none_or]
        by_cases hnew : client.generation + 1 = generation
        · right
          simp [Link.fresh, hnew]
        · left
          simp [Link.fresh, hnew]
  · rw [heq]
    exact .inl rfl
  · rw [heq]
    exact .inl rfl

/-- One rule for each thing that can become of the link of a generation in a step. -/
inductive LinkStep (client : DaemonClient) (generation : Nat) (told : List Output) :
    Action → Option Link → Prop where
  | absent (action : Action) (hlink : client.link? generation = none)
      (hother : ∀ linkAction, action ≠ .link generation linkAction) :
      LinkStep client generation told action none
  | begun (action : Action) (hlink : client.link? generation = none)
      (hother : ∀ linkAction, action ≠ .link generation linkAction) :
      LinkStep client generation told action (some (.fresh generation))
  | kept (action : Action) (link : Link) (dismissed : Bool)
      (hlink : client.link? generation = some link)
      (hother : ∀ linkAction, action ≠ .link generation linkAction) :
      LinkStep client generation told action (some { link with dismissed })
  | sent (fields : List String) (link : Link) (hlink : client.link? generation = some link)
      (htold : told = []) (hsession : client.inSession generation = true) :
      LinkStep client generation told (.request fields)
        (some (link.send client.nextRequest (encodeRequest fields)))
  | acted (linkAction : Link.Action) (link changed : Link) (notice : Option Link.Notice)
      (dismissed : Bool) (hlink : client.link? generation = some link)
      (hstep : link.step? linkAction = some (changed, notice)) :
      LinkStep client generation told (.link generation linkAction)
        (some { changed with dismissed })

namespace LinkStep

/-- The link is the one that there was, if there was one. -/
theorem of_eq (h : next.link? generation = client.link? generation)
    (hother : ∀ linkAction, action ≠ .link generation linkAction) :
    LinkStep client generation told action (next.link? generation) := by
  rw [h]
  cases hfound : client.link? generation with
  | none => exact .absent action hfound hother
  | some link => exact .kept action link link.dismissed hfound hother

theorem of_attempt {base : DaemonClient} (hbase : base.link? generation = client.link? generation)
    (result : Except SystemError Unit)
    (hother : ∀ linkAction, action ≠ .link generation linkAction) :
    LinkStep client generation told action ((base.attempt result).link? generation) := by
  rcases base.link?_attempt result generation with hsame | ⟨hnone, hfresh⟩
  · exact of_eq (hsame.trans hbase) hother
  · rw [hfresh]
    exact .begun action (hbase.symm.trans hnone) hother

/-- Nobody is to send the process of a generation any more requests. -/
theorem of_dismiss (dismissed : Nat) (hother : ∀ linkAction, action ≠ .link generation linkAction) :
    LinkStep client generation told action ((client.dismissLink dismissed).link? generation) := by
  rw [link?_dismissLink]
  cases hfound : client.link? generation with
  | none => exact .absent action hfound hother
  | some link =>
      rw [Option.map_some]
      split
      · exact .kept action link true hfound hother
      · exact .kept action link link.dismissed hfound hother

/-- A party of a link acts. -/
theorem of_act {acting : Nat} {linkAction : Link.Action} {link changed : Link}
    {notice : Option Link.Notice} (hlink : client.link? acting = some link)
    (hstep : link.step? linkAction = some (changed, notice)) :
    LinkStep client generation told (.link acting linkAction)
      ((client.setLink changed).link? generation) := by
  have hchanged : changed.generation = acting :=
    (Link.step?_keeps hstep).1.trans (generation_of_link? hlink)
  by_cases hsame : acting = generation
  · subst hsame
    rw [link?_setLink_same hlink hchanged]
    exact .acted linkAction link changed notice changed.dismissed hlink hstep
  · refine of_eq (link?_setLink_other (hchanged ▸ hsame)) fun other heq => ?_
    cases heq
    exact hsame rfl

/-- The watch of a process reports its end, and the process gets no more requests. -/
theorem of_report {acting : Nat} {link changed : Link} {notice : Option Link.Notice}
    (hlink : client.link? acting = some link)
    (hstep : link.step? .report = some (changed, notice)) :
    LinkStep client generation told (.link acting .report)
      (((client.setLink changed).dismissLink acting).link? generation) := by
  have hchanged : changed.generation = acting :=
    (Link.step?_keeps hstep).1.trans (generation_of_link? hlink)
  rw [link?_dismissLink]
  by_cases hsame : acting = generation
  · subst hsame
    rw [link?_setLink_same hlink hchanged, Option.map_some, if_pos hchanged]
    exact .acted .report link changed notice true hlink hstep
  · have hother : ∀ linkAction, Action.link acting .report ≠ .link generation linkAction := by
      intro linkAction heq
      cases heq
      exact hsame rfl
    rw [link?_setLink_other (hchanged ▸ hsame)]
    cases hfound : client.link? generation with
    | none => exact .absent _ hfound hother
    | some found =>
        have hne : found.generation ≠ acting := by
          rw [generation_of_link? hfound]
          exact fun heq => hsame heq.symm
        rw [Option.map_some, if_neg hne]
        exact .kept _ found found.dismissed hfound hother

end LinkStep

/-- What becomes of the link of a generation in a step follows the rules. -/
theorem Step.linkStep (h : Step client action next told) (generation : Nat) :
    LinkStep client generation told action (next.link? generation) := by
  cases h with
  | startUp | stopNothing | stop | stopReturns | refuse | abandon | timerDue | timerLate
  | restartUp => exact .of_eq rfl nofun
  | start result => exact .of_attempt rfl result nofun
  | restart result =>
      have hbase : { client with restarting := client.restarting - 1 }.link? generation
          = client.link? generation := rfl
      exact .of_attempt hbase result nofun
  | dismiss index session => exact .of_dismiss session.generation nofun
  | accept fields session link hstatus hsession hlink =>
      have hchanged : (link.send client.nextRequest (encodeRequest fields)).generation
          = session.generation := by
        show link.generation = session.generation
        exact generation_of_link? hlink
      show LinkStep client generation [] _ ((client.setLink _).link? generation)
      by_cases hsame : session.generation = generation
      · subst hsame
        rw [link?_setLink_same hlink hchanged]
        exact .sent fields link hlink rfl (by simp [inSession, hsession])
      · exact .of_eq (link?_setLink_other (hchanged ▸ hsame)) nofun
  | link acting linkAction link changed notice hlink hstep => exact .of_act hlink hstep
  | answer acting link changed batch _ _ _ hlink hstep => exact .of_act hlink hstep
  | unasked acting link changed batch _ hlink hstep => exact .of_act hlink hstep
  | exit acting link session hlink hwatch => exact .of_report hlink (Link.step?_report hwatch)
  | crash acting link waited session hlink hwatch =>
      exact .of_report hlink (Link.step?_report hwatch)

/-! ## What the reader of a generation has gone on to -/

/-- The bytes that the process of a generation writes in an event. -/
def bytesOf (generation : Nat) (event : Event DaemonClient Action Output) : List UInt8 :=
  match event.action with
  | .link acting action => if acting = generation then action.bytes else []
  | _ => []

/-- The line that the reader of a generation goes on to in an event. -/
def lineOf? (generation : Nat) (event : Event DaemonClient Action Output) : Option String :=
  match event.action with
  | .link acting action =>
      if acting = generation then (event.before.link? generation).bind (·.passed? action) else none
  | _ => none

/-- The bytes that the process of a generation has written. -/
def History.bytesWritten (past : History) (generation : Nat) : List UInt8 :=
  past.flatMap (bytesOf generation)

/-- The lines that the reader of a generation has gone on to. -/
def History.linesRead (past : History) (generation : Nat) : List String :=
  past.filterMap (lineOf? generation)

section Concat

variable (past : History) (event : Event DaemonClient Action Output)

theorem bytesWritten_concat : History.bytesWritten (past ++ [event]) generation
    = past.bytesWritten generation ++ bytesOf generation event := by
  simp [History.bytesWritten]

theorem linesRead_concat : History.linesRead (past ++ [event]) generation
    = past.linesRead generation ++ (lineOf? generation event).toList := by
  cases h : lineOf? generation event <;> simp [History.linesRead, h]

/-- Other parties write nothing and read nothing. -/
theorem read_concat_of_other (hother : ∀ action, event.action ≠ .link generation action) :
    History.bytesWritten (past ++ [event]) generation = past.bytesWritten generation ∧
      History.linesRead (past ++ [event]) generation = past.linesRead generation := by
  have hnothing : bytesOf generation event = [] ∧ lineOf? generation event = none := by
    unfold bytesOf lineOf?
    split
    · rename_i acting action haction
      have hne : acting ≠ generation := fun heq => hother action (heq ▸ haction)
      exact ⟨if_neg hne, if_neg hne⟩
    · exact ⟨rfl, rfl⟩
  rw [bytesWritten_concat, linesRead_concat, hnothing.1, hnothing.2]
  exact ⟨List.append_nil _, List.append_nil _⟩

end Concat

/-- The reader of a generation is with the bytes of its process. -/
structure Reads (generation : Nat) (past : History) (client : DaemonClient) : Prop where
  absent : client.link? generation = none →
    past.bytesWritten generation = [] ∧ past.linesRead generation = []
  reading : ∀ link, client.link? generation = some link →
    Link.Reading (past.bytesWritten generation) (past.linesRead generation) link

namespace Reads

variable {past : History}

/-- Before the first call there is nothing to read. -/
theorem initial (settings : DaemonSettings) (generation : Nat) :
    Reads generation [] (ofSettings settings) where
  absent _ := ⟨rfl, rfl⟩
  reading _ h := nomatch h

/-- Every step keeps readers with the bytes of their processes. -/
theorem step (h : Reads generation past client) (hstep : Step client action next told) :
    Reads generation (past ++ [⟨client, action, next, told⟩]) next := by
  have hlinkStep := hstep.linkStep generation
  generalize hnext : next.link? generation = found at hlinkStep
  cases hlinkStep with
  | absent _ hlink hother =>
      obtain ⟨hbytes, hlines⟩ :=
        read_concat_of_other past ⟨client, action, next, told⟩ hother
      refine ⟨fun _ => ?_, fun link hfound => nomatch hnext.symm.trans hfound⟩
      rw [hbytes, hlines]
      exact h.absent hlink
  | begun _ hlink hother =>
      obtain ⟨hbytes, hlines⟩ :=
        read_concat_of_other past ⟨client, action, next, told⟩ hother
      refine ⟨fun hnone => (nomatch hnext.symm.trans hnone), fun link hfound => ?_⟩
      cases hnext.symm.trans hfound
      rw [hbytes, hlines, (h.absent hlink).1, (h.absent hlink).2]
      exact .fresh generation
  | kept _ link dismissed hlink hother =>
      obtain ⟨hbytes, hlines⟩ :=
        read_concat_of_other past ⟨client, action, next, told⟩ hother
      refine ⟨fun hnone => (nomatch hnext.symm.trans hnone), fun link hfound => ?_⟩
      cases hnext.symm.trans hfound
      rw [hbytes, hlines]
      exact (h.reading _ hlink).congr ⟨rfl, rfl, rfl, rfl, rfl, rfl⟩
  | sent fields link hlink =>
      have hother : ∀ linkAction, Action.request fields ≠ .link generation linkAction := nofun
      obtain ⟨hbytes, hlines⟩ :=
        read_concat_of_other past ⟨client, .request fields, next, told⟩ hother
      refine ⟨fun hnone => (nomatch hnext.symm.trans hnone), fun link hfound => ?_⟩
      cases hnext.symm.trans hfound
      rw [hbytes, hlines]
      exact (h.reading _ hlink).congr ⟨rfl, rfl, rfl, rfl, rfl, rfl⟩
  | acted linkAction link changed notice dismissed hlink hact =>
      refine ⟨fun hnone => (nomatch hnext.symm.trans hnone), fun link hfound => ?_⟩
      cases hnext.symm.trans hfound
      have hread : Link.Reading _ _ { changed with dismissed } :=
        ((h.reading _ hlink).step? hact).congr ⟨rfl, rfl, rfl, rfl, rfl, rfl⟩
      rw [bytesWritten_concat, linesRead_concat]
      simpa [bytesOf, lineOf?, hlink] using hread

/-- In every history the readers are with the bytes of their processes. -/
theorem of_run {settings : DaemonSettings} {actions : List Action}
    (hrun : (ofSettings settings).run? actions = some (client, told)) (generation : Nat) :
    Reads generation ((ofSettings settings).history actions) client :=
  history_invariant (fun _ _ _ _ _ _ h hstep => h.step hstep) (initial settings generation) hrun

/-- Whatever was read of a process, it wrote. -/
theorem prefix_linesOf (h : Reads generation past client) :
    past.linesRead generation <+: LineBuffer.linesOf (past.bytesWritten generation) := by
  cases hfound : client.link? generation with
  | none =>
      rw [(h.absent hfound).2]
      exact List.nil_prefix
  | some link => exact (h.reading link hfound).prefix_linesOf

end Reads

end DaemonClient

end Toolbench
