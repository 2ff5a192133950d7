import Toolbench.Proofs.Daemon.LastAnswers
import Toolbench.Proofs.Daemon.RequestLine

/-!
# A daemon that answers lines

A daemon sees lines, not requests, and answers each line that it reads. The client pairs the answers
with its requests by their places, which is right as long as each request is one line:
`typed_requests_answered` says so of every session in which no path has a line feed. One line feed
shifts the answers to all later requests (`line_feed_shifts_answers`).
-/

namespace Toolbench.DaemonClient

/-- The text that the writer of a session was given. -/
def textOf (log : List SessionEntry) : String :=
  String.join ((accepted log).map fun request => encodeRequest request.2)

/-- One batch for each line. It may depend on the lines before. -/
def replies (reply : List String → Batch) (lines : List String) : List Batch :=
  (List.range lines.length).map fun place => reply (lines.take (place + 1))

/-- The process of a generation answers every line that it is given with one batch, in order: the
answers that it has written at any time are the first of those to the lines given until then. -/
def AnswersLines (reply : List String → Batch) (history : History) (generation : Nat) : Prop :=
  ∀ past : History, past <+: history → batchesOf (LineBuffer.linesOf (past.bytesWritten generation))
    <+: replies reply (wireLines (textOf (past.logOf generation)))

/-- The answers that a session has handled at any time are the first of those to the lines given
until then. -/
def HandlesReplies (reply : List String → Batch) (log : List SessionEntry) : Prop :=
  ∀ earlier, earlier <+: log → handled earlier <+: replies reply (wireLines (textOf earlier))

variable {log earlier : List SessionEntry} {asked : List Request} {reply : List String → Batch}

/-- The answer at a place is the one to the line at that place. -/
theorem getElem?_replies {lines : List String} {place : Nat} {batch : Batch}
    (h : (replies reply lines)[place]? = some batch) :
    place < lines.length ∧ batch = reply (lines.take (place + 1)) := by
  rw [replies, List.getElem?_map] at h
  obtain ⟨found, hfound, rfl⟩ := Option.map_eq_some_iff.1 h
  obtain ⟨hlt, rfl⟩ := List.getElem?_eq_some_iff.1 hfound
  rw [List.getElem_range]
  exact ⟨by simpa using hlt, rfl⟩

@[simp] theorem length_replies (reply : List String → Batch) (lines : List String) :
    (replies reply lines).length = lines.length := by
  simp [replies]

/-- What a session handles are the answers of its process. -/
theorem AnswersLines.handlesReplies {settings : DaemonSettings} {actions : List Action}
    {client : DaemonClient} {outputs : List Output} {generation : Nat}
    (h : AnswersLines reply ((ofSettings settings).history actions) generation)
    (hrun : (ofSettings settings).run? actions = some (client, outputs)) :
    HandlesReplies reply (sessionLog generation (ofSettings settings) actions) := by
  rintro earlier ⟨later, hlog⟩
  obtain ⟨past, rest, hpast, rfl, -⟩ := List.filterMap_eq_append_iff.1 hlog.symm
  have hfirst : past <+: (ofSettings settings).history actions := ⟨rest, hpast.symm⟩
  refine List.IsPrefix.trans ?_ (h past hfirst)
  cases rest with
  | nil =>
      obtain rfl : (ofSettings settings).history actions = past := by
        rw [history, hpast, List.append_nil]
      exact handled_prefix_of_run hrun generation
  | cons event rest =>
      obtain ⟨before, told, hbefore, rfl, -⟩ := Machine.exists_run_of_append step? hpast
      exact handled_prefix_of_run hbefore generation

/-- A beginning of a log of requests about places has accepted the first of them. -/
theorem accepted_earlier (htyped : (accepted log).map (·.2) = asked.map Request.fields)
    (h : earlier <+: log) :
    (accepted earlier).map (·.2) = (asked.take (accepted earlier).length).map Request.fields := by
  obtain ⟨later, rfl⟩ := h
  have happend : accepted (earlier ++ later) = accepted earlier ++ accepted later :=
    List.filterMap_append
  rw [happend, List.map_append] at htyped
  rw [List.map_take, ← htyped, List.take_left' (List.length_map _)]

/-- Where no path has a line feed, the lines of a beginning of a log are those of its requests. -/
theorem wireLines_textOf (htyped : (accepted log).map (·.2) = asked.map Request.fields)
    (hplain : ∀ request ∈ asked, ∀ path ∈ request.paths, '\n' ∉ path.text.toList)
    (h : earlier <+: log) :
    wireLines (textOf earlier) = (asked.take (accepted earlier).length).map Request.wireLine := by
  have htext : (accepted earlier).map (fun request => encodeRequest request.2)
      = (asked.take (accepted earlier).length).map Request.encode := by
    have hfields := congrArg (List.map encodeRequest) (accepted_earlier htyped h)
    rwa [List.map_map, List.map_map] at hfields
  rw [textOf, htext, Request.wireLines_join_encode_iff]
  exact fun request hrequest => hplain request (List.mem_of_mem_take hrequest)

namespace HandlesReplies

/-- Answers to lines are never ahead of requests that are one line each. -/
theorem neverAhead (h : HandlesReplies reply log)
    (htyped : (accepted log).map (·.2) = asked.map Request.fields)
    (hplain : ∀ request ∈ asked, ∀ path ∈ request.paths, '\n' ∉ path.text.toList) :
    NeverAhead log := by
  intro earlier hearlier
  have hlength := (h earlier hearlier).length_le
  rw [length_replies, wireLines_textOf htyped hplain hearlier, List.length_map] at hlength
  exact hlength.trans (List.length_take_le _ _)

/-- The answer at a place is the one to the line of the request at that place. -/
theorem batch_eq {later : List SessionEntry} {batch : Batch} {told : List Output}
    (h : HandlesReplies reply log)
    (htyped : (accepted log).map (·.2) = asked.map Request.fields)
    (hplain : ∀ request ∈ asked, ∀ path ∈ request.paths, '\n' ∉ path.text.toList)
    (hlog : log = earlier ++ .handled batch told :: later) :
    batch = reply ((asked.take ((handled earlier).length + 1)).map Request.wireLine) := by
  have hfirst : earlier ++ [.handled batch told] <+: log := ⟨later, by rw [hlog]; simp⟩
  obtain ⟨rest, hrest⟩ := h _ hfirst
  rw [handled_concat] at hrest
  have hplace : (replies reply (wireLines (textOf (earlier ++ [.handled batch told]))))[
      (handled earlier).length]? = some batch := by
    rw [← hrest]
    simp [SessionEntry.batch?]
  rw [wireLines_textOf htyped hplain hfirst] at hplace
  obtain ⟨hlt, heq⟩ := getElem?_replies hplace
  rw [List.length_map, List.length_take] at hlt
  rw [heq, ← List.map_take, List.take_take, Nat.min_eq_left (by omega)]

end HandlesReplies

/-- A request is written as one line of four or five fields exactly when its paths have no line
feed, and no tab but for one tab in the only path. In a session of requests whose paths have no line
feed, the lines that a daemon reads are those of the requests, and when it answers each line with
one batch, every answer is the one to the line of the request that it is given to. When it has
answered every line, every request has its answer. -/
theorem typed_requests_answered {settings : DaemonSettings} {actions : List Action}
    {client : DaemonClient} {outputs : List Output} {generation : Nat}
    (hrun : (ofSettings settings).run? actions = some (client, outputs))
    (htyped : (accepted (sessionLog generation (ofSettings settings) actions)).map (·.2)
      = asked.map Request.fields)
    (hplain : ∀ request ∈ asked, ∀ path ∈ request.paths, '\n' ∉ path.text.toList)
    (hanswers : AnswersLines reply ((ofSettings settings).history actions) generation) :
    let log := sessionLog generation (ofSettings settings) actions
    (∀ request : Request, IsOneRequest request.encode ↔
      (∀ path ∈ request.paths, '\n' ∉ path.text.toList) ∧
        request.paths.length + (request.paths.flatMap (·.text.toList)).count '\t' ≤ 2) ∧
    wireLines (String.join (client.texts generation)) = asked.map Request.wireLine ∧
    (∀ earlier batch told later, log = earlier ++ .handled batch told :: later →
      ∃ id request, (accepted log)[(handled earlier).length]? = some (id, request.fields) ∧
        asked[(handled earlier).length]? = some request ∧
        batch = reply ((asked.take ((handled earlier).length + 1)).map Request.wireLine) ∧
        told = [.answered ⟨id, batch, decide (id ∉ abandoned earlier)⟩]) ∧
    ((handled log).length = (wireLines (String.join (client.texts generation))).length →
      answered log = requests log) := by
  intro log
  have hpaired : Paired generation log client := .of_run hrun generation
  have hgiven : HandlesReplies reply log := hanswers.handlesReplies hrun
  have hahead : NeverAhead log := hgiven.neverAhead htyped hplain
  have hlines : wireLines (String.join (client.texts generation)) = asked.map Request.wireLine := by
    have htext : textOf log = String.join (client.texts generation) := by
      rw [textOf, hpaired.texts]
    have hall := wireLines_textOf htyped hplain (List.prefix_refl log)
    have hlength : (accepted log).length = asked.length := by
      simpa using congrArg List.length htyped
    rw [hlength, List.take_length, htext] at hall
    exact hall
  refine ⟨fun _ => Request.encode_isOneRequest_iff, hlines, ?_, fun hdone => ?_⟩
  · intro earlier batch told later hlog
    rw [hlog] at hpaired hahead
    obtain ⟨id, fields, hget, htold⟩ := hpaired.handled_at hahead
    rw [← hlog] at hget
    have hfields : (asked.map Request.fields)[(handled earlier).length]? = some fields := by
      rw [← htyped, List.getElem?_map, hget]
      rfl
    rw [List.getElem?_map] at hfields
    obtain ⟨request, hrequest, rfl⟩ := Option.map_eq_some_iff.1 hfields
    exact ⟨id, request, hget, hrequest, hgiven.batch_eq htyped hplain hlog, htold⟩
  · have hrequests : (requests log).length = asked.length := by
      simpa [requests] using congrArg List.length htyped
    rw [answered_eq_take hpaired.fifo hahead hpaired.nodup, hdone, hlines, List.length_map,
      ← hrequests, List.take_length]

/-- It is enough to look at each beginning of a history. -/
theorem answersLines_of_inits {history : History} {generation : Nat}
    (h : ∀ past : History, past ∈ history.inits →
      batchesOf (LineBuffer.linesOf (past.bytesWritten generation))
        <+: replies reply (wireLines (textOf (past.logOf generation)))) :
    AnswersLines reply history generation :=
  fun past hpast => h past ((List.mem_inits _ _).2 hpast)

/-- The process answers a line with that line. -/
def echo (lines : List String) : Batch :=
  lines.drop (lines.length - 1)

/-- A session with two requests, in which the process writes batches of one line each. -/
def twoRequests (first second : Request) (lines : List String) : List Action :=
  [.start (.ok ()), .request first.fields, .request second.fields, .link 1 .write, .link 1 .write]
    ++ (lines.flatMap fun line =>
      let bytes := (line ++ "\nEND\n").toList.flatMap String.utf8EncodeChar
      [.link 1 (.produce bytes), .link 1 (.read bytes.length), .link 1 .push, .link 1 .push])

/-- Two files, and an answer about each. -/
theorem typed_requests_answered_two_files :
    let first : Request := ⟨.complete, ⟨"a"⟩, 1, 0, none⟩
    let second : Request := ⟨.complete, ⟨"b"⟩, 2, 0, none⟩
    let actions := twoRequests first second ["complete\t1\t0\ta", "complete\t2\t0\tb"]
    let log := sessionLog 1 (ofSettings .standard) actions
    ((ofSettings .standard).run? actions).isSome = true ∧
    (accepted log).map (·.2) = [first, second].map Request.fields ∧
    (∀ request ∈ [first, second], ∀ path ∈ request.paths, '\n' ∉ path.text.toList) ∧
    AnswersLines echo ((ofSettings .standard).history actions) 1 ∧ answered log = requests log := by
  intro first second actions log
  have htyped : (accepted log).map (·.2) = [first, second].map Request.fields := by
    decide +kernel
  have hplain : ∀ request ∈ [first, second], ∀ path ∈ request.paths,
      '\n' ∉ path.text.toList := by
    decide +kernel
  have hanswers : AnswersLines echo ((ofSettings .standard).history actions) 1 :=
    answersLines_of_inits (by decide +kernel)
  have hsome : ((ofSettings .standard).run? actions).isSome = true := by decide +kernel
  obtain ⟨⟨client, outputs⟩, hrun⟩ := Option.isSome_iff_exists.1 hsome
  obtain ⟨-, hlines, -, hall⟩ := typed_requests_answered hrun htyped hplain hanswers
  refine ⟨hsome, htyped, hplain, hanswers, hall ?_⟩
  rw [hlines]
  decide +kernel

/-- A path with a line feed makes two lines of its request. The answer to the second of them goes to
the next request. -/
theorem line_feed_shifts_answers :
    (¬ ∀ request : Request, IsOneRequest request.encode) ∧
    ¬ ∀ (actions : List Action) (client : DaemonClient) (outputs : List Output)
        (asked : List Request) (reply : List String → Batch),
      (ofSettings .standard).run? actions = some (client, outputs) →
      let log := sessionLog 1 (ofSettings .standard) actions
      (accepted log).map (·.2) = asked.map Request.fields →
      AnswersLines reply ((ofSettings .standard).history actions) 1 →
      ∀ earlier batch told later, log = earlier ++ .handled batch told :: later →
        batch = reply ((asked.take ((handled earlier).length + 1)).map Request.wireLine) := by
  let first : Request := ⟨.complete, ⟨"a\n"⟩, 1, 0, none⟩
  let second : Request := ⟨.complete, ⟨"b"⟩, 2, 0, none⟩
  refine ⟨fun h => ?_, fun h => ?_⟩
  · have hfeed := (Request.encode_isOneRequest_iff.1 (h first)).1 first.file (by decide)
    exact hfeed (by decide)
  · let actions := twoRequests first second ["complete\t1\t0\ta", ""]
    let log := sessionLog 1 (ofSettings .standard) actions
    have hsome : ((ofSettings .standard).run? actions).isSome = true := by decide +kernel
    obtain ⟨⟨client, outputs⟩, hrun⟩ := Option.isSome_iff_exists.1 hsome
    have hanswers : AnswersLines echo ((ofSettings .standard).history actions) 1 :=
      answersLines_of_inits (by decide +kernel)
    have hhandled : (handled log)[1]? = some [""] := by decide +kernel
    obtain ⟨earlier, told, later, hlog, hearlier⟩ := exists_handled_at hhandled
    have hsecond := h actions client outputs [first, second] echo hrun (by decide +kernel) hanswers
      earlier [""] told later hlog
    rw [hearlier] at hsecond
    exact absurd hsecond (by decide +kernel)

end Toolbench.DaemonClient
