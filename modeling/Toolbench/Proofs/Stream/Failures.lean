import Toolbench.Proofs.Stream.Reports

/-!
# Reading on after failures

A source may fail at any read, inside a line or a character too. The reader reports the failure and
goes on as if nothing had happened. What it reports is an account of the stream (`Accounts`): the
lines are those of all bytes before the end, and each failure stands behind the lines that were
complete when it occurred. `reports_of_script` says so for every script of chunks and failures,
where a chunk of any size is read in pieces of at most `readSize` bytes.
-/

namespace Toolbench.LineSource

variable {size room : Nat} {bytes piece chunk : List UInt8} {script answers : List ReadAnswer}
  {events : List LineEvent}

/-! ## Pieces of chunks -/

/-- Nothing is lost where bytes are cut. -/
@[simp] theorem flatten_cut (size room : Nat) (bytes : List UInt8) :
    (cut size room bytes).flatten = bytes := by
  fun_induction cut size room bytes <;> simp_all

/-- No piece is empty. -/
theorem ne_nil_of_mem_cut (h : piece ∈ cut size room bytes) : piece ≠ [] := by
  fun_induction cut size room bytes <;> grind

/-- There is room for the first piece, and no other is longer than the size. -/
theorem length_cut (hroom : room < size) (bytes : List UInt8) :
    (∀ piece ∈ (cut size room bytes).head?, piece.length ≤ room + 1) ∧
      ∀ piece ∈ (cut size room bytes).tail, piece.length ≤ size := by
  fun_induction cut size room bytes with
  | case1 => simp
  | case2 => simp
  | case3 byte bytes hbytes ih =>
      obtain ⟨hfirst, hlater⟩ := ih (by omega)
      refine ⟨by simp, fun piece hpiece => ?_⟩
      -- Behind a full piece the next one is the first one again, with all the room there is.
      cases hcut : cut size (size - 1) bytes with
      | nil => simp [hcut] at hpiece
      | cons first later =>
          rw [hcut] at hfirst hlater
          rw [List.tail_cons, hcut] at hpiece
          rcases List.mem_cons.1 hpiece with rfl | hmem
          · have hle := hfirst piece rfl
            omega
          · exact hlater piece hmem
  | case4 => simp
  | case5 room byte bytes hbytes first later hcut ih =>
      obtain ⟨hfirst, hlater⟩ := ih (by omega)
      rw [hcut] at hfirst hlater
      have hle := hfirst first rfl
      refine ⟨fun piece hpiece => ?_, hlater⟩
      obtain rfl : _ :: first = piece := Option.some.inj hpiece
      simpa using hle

/-- No piece is longer than the size. -/
theorem length_le_of_mem_cut (hroom : room < size) (h : piece ∈ cut size room bytes) :
    piece.length ≤ size := by
  obtain ⟨hfirst, hlater⟩ := length_cut hroom bytes
  cases hcut : cut size room bytes with
  | nil => simp [hcut] at h
  | cons first later =>
      rw [hcut] at h hfirst hlater
      rcases List.mem_cons.1 h with rfl | hmem
      · have hle := hfirst piece rfl
        omega
      · exact hlater piece hmem

/-- Bytes for which there is room stay in one piece. -/
theorem cut_eq_singleton (hne : bytes ≠ []) (h : bytes.length ≤ room + 1) :
    cut size room bytes = [bytes] := by
  fun_induction cut size room bytes with
  | case1 => exact absurd rfl hne
  | case2 => rfl
  | case3 byte bytes hbytes ih =>
      have hpos := List.length_pos_iff.2 hbytes
      rw [List.length_cons] at h
      omega
  | case4 room byte bytes hbytes hcut ih =>
      have hnone := flatten_cut size room bytes
      rw [hcut] at hnone
      exact absurd hnone.symm hbytes
  | case5 room byte bytes hbytes first later hcut ih =>
      rw [ih hbytes (by simpa using h)] at hcut
      cases hcut
      rfl

/-- A chunk is read in pieces of which none is empty or longer than a read takes. -/
theorem answersOf_eq (hne : chunk ≠ []) :
    ∃ pieces : List (List UInt8), answersOf chunk = pieces.map .bytes ∧ pieces.flatten = chunk ∧
      ∀ piece ∈ pieces, piece ≠ [] ∧ piece.length ≤ readSize := by
  refine ⟨cut readSize (readSize - 1) chunk, ?_, flatten_cut _ _ _, fun piece hpiece =>
    ⟨ne_nil_of_mem_cut hpiece, length_le_of_mem_cut (by decide) hpiece⟩⟩
  have hflatten := flatten_cut readSize (readSize - 1) chunk
  unfold answersOf
  split
  · rename_i hnone
    rw [hnone] at hflatten
    exact absurd hflatten.symm hne
  · rfl

/-! ## Scripts -/

/-- What a source answers that has chunks and failures to deliver. -/
def delivered (script : List ReadAnswer) : List ReadAnswer :=
  script.flatMap fun
    | .bytes chunk => answersOf chunk
    | .failure message => [.failure message]

/-- The bytes of answers. -/
def dataOf (answers : List ReadAnswer) : List UInt8 :=
  answers.flatMap ReadAnswer.data

theorem delivered_cons (answer : ReadAnswer) (script : List ReadAnswer) :
    delivered (answer :: script) = delivered [answer] ++ delivered script := by
  simp [delivered]

/-- An answer before the end is delivered as it is, or it is a chunk in pieces. -/
theorem delivered_singleton {answer : ReadAnswer} (h : answer ≠ .bytes []) :
    (∀ part ∈ delivered [answer], part ≠ .bytes [] ∧ ∀ chunk, part = .bytes chunk →
      chunk.length ≤ readSize) ∧
    dataOf (delivered [answer]) = answer.data ∧
    (delivered [answer]).filterMap ReadAnswer.failure? = answer.failure?.toList := by
  cases answer with
  | failure message => exact ⟨by simp [delivered], rfl, rfl⟩
  | bytes chunk =>
      have hne : chunk ≠ [] := by simpa using h
      obtain ⟨pieces, hpieces, hflatten, hpiece⟩ := answersOf_eq hne
      have hdelivered : delivered [.bytes chunk] = pieces.map .bytes := by
        simpa [delivered] using hpieces
      rw [hdelivered]
      refine ⟨?_, ?_, ?_⟩
      · intro part hpart
        obtain ⟨piece, hmem, rfl⟩ := List.mem_map.1 hpart
        obtain ⟨hne, hle⟩ := hpiece piece hmem
        refine ⟨by simpa using hne, ?_⟩
        rintro _ ⟨rfl⟩
        exact hle
      · rw [dataOf, List.flatMap_map]
        exact List.flatMap_id'.trans hflatten
      · rw [List.filterMap_map]
        exact List.filterMap_eq_nil_iff.2 fun _ _ => rfl

/-- Delivering changes neither the bytes nor the failures. -/
theorem delivered_keeps (h : ∀ answer ∈ script, answer ≠ .bytes []) :
    dataOf (delivered script) = dataOf script ∧
      (delivered script).filterMap ReadAnswer.failure?
        = script.filterMap ReadAnswer.failure? := by
  induction script with
  | nil => exact ⟨rfl, rfl⟩
  | cons answer script ih =>
      obtain ⟨hanswer, hscript⟩ := List.forall_mem_cons.1 h
      obtain ⟨hdata, hfailures⟩ := ih hscript
      obtain ⟨-, hfirst, hfailure⟩ := delivered_singleton hanswer
      rw [delivered_cons]
      constructor
      · rw [dataOf, List.flatMap_append, ← dataOf, ← dataOf, hfirst, hdata]
        rfl
      · rw [List.filterMap_append, hfailure, hfailures]
        cases answer <;> rfl

/-- The end of a script is delivered as the end. -/
theorem beforeEnd_delivered (script : List ReadAnswer) :
    beforeEnd (delivered script) = delivered (beforeEnd script) := by
  induction script with
  | nil => rfl
  | cons answer script ih =>
      by_cases hend : answer = .bytes []
      · rw [hend]
        rfl
      · have hbefore : beforeEnd (answer :: script) = answer :: beforeEnd script :=
          List.takeWhile_cons_of_pos (by simpa using hend)
        rw [hbefore, delivered_cons, delivered_cons answer (beforeEnd script), ← ih]
        refine List.takeWhile_append_of_pos fun part hpart => ?_
        simpa using ((delivered_singleton hend).1 part hpart).1

/-- Chunks that a read can take are delivered as they are. -/
theorem delivered_eq_self (h : ∀ chunk, .bytes chunk ∈ script → chunk.length ≤ readSize) :
    delivered script = script := by
  induction script with
  | nil => rfl
  | cons answer script ih =>
      rw [delivered_cons, ih fun chunk hchunk => h chunk (List.mem_cons_of_mem _ hchunk)]
      cases answer with
      | failure message => rfl
      | bytes chunk =>
          have hle := h chunk List.mem_cons_self
          by_cases hne : chunk = []
          · rw [hne]
            rfl
          · have hwhole : answersOf chunk = [.bytes chunk] := by
              have hroom : chunk.length ≤ readSize - 1 + 1 := hle
              rw [answersOf, cut_eq_singleton hne hroom]
              rfl
            show answersOf chunk ++ [] ++ script = _
            rw [hwhole]
            rfl

/-! ## Accounts of a stream -/

/-- The events tell of a stream that gives these answers before its end. -/
structure Accounts (answers : List ReadAnswer) (events : List LineEvent) : Prop where
  /-- The end has not come. -/
  going : .ended ∉ events
  /-- Every line of the stream is reported once, in order, -/
  lines : events.filterMap LineEvent.line? = LineBuffer.linesOf (dataOf answers)
  /-- and so is every failure. -/
  failures : events.filterMap LineEvent.failure? = answers.filterMap ReadAnswer.failure?
  /-- A failure stands behind the lines that were complete when it occurred, and before all
  others. -/
  placed : ∀ before message after, answers = before ++ .failure message :: after →
    ∃ earlier later, events = earlier ++ .failure message :: later ∧
      earlier.filterMap LineEvent.line? = LineBuffer.completed (dataOf before) ∧
      earlier.filterMap LineEvent.failure? = before.filterMap ReadAnswer.failure?
  /-- What no line feed ends is the last that is reported. -/
  last : LineBuffer.unfinished (dataOf answers) ≠ [] → ∃ earlier,
    events = earlier ++ [.line (LineBuffer.lineText (LineBuffer.unfinished (dataOf answers)))]

/-- Answers that are taken in tell of lines and failures. -/
theorem ended_not_mem_takeIn (buffer : LineBuffer) (answers : List ReadAnswer) :
    .ended ∉ (takeIn buffer answers).1 := by
  induction answers generalizing buffer with
  | nil => exact List.not_mem_nil
  | cons answer answers ih =>
      cases answer with
      | failure message => simpa [takeIn] using ih buffer
      | bytes chunk => simpa [takeIn] using ih (buffer.feed chunk).2

/-- What a reader reports from the beginning tells of its stream. -/
theorem accounts_told (answers : List ReadAnswer) :
    Accounts (beforeEnd answers) (told .empty answers) := by
  obtain ⟨hlines, hfollows⟩ := line?_takeIn LineBuffer.follows_empty (beforeEnd answers)
  have hall := hfollows.finish
  rw [List.nil_append, ← dataOf] at hlines hfollows hall
  have htail := LineBuffer.linesOf_eq (dataOf (beforeEnd answers))
  rw [← hall, List.append_cancel_left_eq] at htail
  have hcompleted : LineBuffer.completed [] = [] := rfl
  rw [hcompleted, List.nil_append] at hlines
  constructor
  case going =>
    simp [told, ended_not_mem_takeIn]
  case lines =>
    rw [← hall, hlines, told, List.filterMap_append, LineEvent.filterMap_line?]
  case failures =>
    rw [told, List.filterMap_append, LineEvent.filterMap_failure?, List.append_nil,
      failure?_takeIn]
  case placed =>
    intro before message after heq
    obtain ⟨hbefore, -⟩ := line?_takeIn LineBuffer.follows_empty before
    rw [List.nil_append, ← dataOf, hcompleted, List.nil_append] at hbefore
    refine ⟨(takeIn .empty before).1, (takeIn (takeIn .empty before).2 after).1
      ++ (takeIn .empty (beforeEnd answers)).2.finish.1.toList.map .line, ?_, hbefore.symm,
      failure?_takeIn _ _⟩
    rw [told, heq, takeIn_append]
    simp only [takeIn, List.append_assoc, List.cons_append]
  case last =>
    intro hne
    rw [if_neg hne] at htail
    exact ⟨(takeIn .empty (beforeEnd answers)).1, by rw [told]; simp [htail]⟩

/-- What tells of the delivered answers tells of the script. -/
theorem Accounts.of_delivered (h : ∀ answer ∈ script, answer ≠ .bytes [])
    (haccounts : Accounts (delivered script) events) : Accounts script events := by
  obtain ⟨hgoing, hlines, hfailures, hplaced, hlast⟩ := haccounts
  obtain ⟨hdata, hkept⟩ := delivered_keeps h
  rw [hdata] at hlines hlast
  refine ⟨hgoing, hlines, hfailures.trans hkept, ?_, hlast⟩
  intro before message after heq
  have hbefore : ∀ answer ∈ before, answer ≠ .bytes [] :=
    fun answer hmem => h answer (heq ▸ List.mem_append_left _ hmem)
  obtain ⟨hearly, hfailed⟩ := delivered_keeps hbefore
  rw [← hearly, ← hfailed]
  refine hplaced (delivered before) message (delivered after) ?_
  rw [heq]
  simp [delivered]

/-- A source delivers the chunks of its script in pieces of at most `readSize` bytes, smaller chunks
as they are. What the reader reports before the end tells of the script up to its first end: its
lines, whole and in order, each failure in its place, and what no line feed ends as the last line.
From then on the reader reports the end. -/
theorem reports_of_script (script : List ReadAnswer) :
    (∀ chunk, .bytes chunk ∈ delivered script → chunk.length ≤ readSize) ∧
    ((∀ chunk, .bytes chunk ∈ script → chunk.length ≤ readSize) → delivered script = script) ∧
    ∃ events, Accounts (beforeEnd script) events ∧
      ∀ n, reports n (ofAnswers (delivered script))
        = (events ++ List.replicate n LineEvent.ended).take n := by
  refine ⟨fun chunk hchunk => ?_, delivered_eq_self, told .empty (delivered script), ?_,
    fun n => reports_eq n _⟩
  · obtain ⟨answer, hanswer, hmem⟩ := List.mem_flatMap.1 hchunk
    by_cases hend : answer = .bytes []
    · rw [hend] at hmem
      obtain rfl : [] = chunk := by simpa [answersOf, cut] using hmem
      exact Nat.zero_le _
    · exact ((delivered_singleton hend).1 (.bytes chunk) (by simpa [delivered] using hmem)).2
        chunk rfl
  · have htold := accounts_told (delivered script)
    rw [beforeEnd_delivered] at htold
    refine htold.of_delivered fun answer hanswer => ?_
    simpa using List.mem_takeWhile_imp hanswer

/-- Two failures, one inside a character and one inside the last line, and bytes behind the end. -/
theorem reports_of_script_twice_failed :
    let before : List ReadAnswer := [.bytes [0x61, 0xC3], .failure "a", .bytes [0xA9, 0x0A, 0x62]]
    let script : List ReadAnswer :=
      before ++ .failure "b" :: [.bytes [0x63], .bytes [], .failure "c", .bytes [0x64]]
    (∀ chunk, .bytes chunk ∈ script → chunk.length ≤ readSize) ∧ delivered script = script ∧
    beforeEnd script = before ++ .failure "b" :: [.bytes [0x63]] ∧
    LineBuffer.unfinished (dataOf (beforeEnd script)) ≠ [] ∧
    ∃ events earlier later, reports 6 (ofAnswers (delivered script))
        = (events ++ List.replicate 6 LineEvent.ended).take 6 ∧
      events = earlier ++ .failure "b" :: later ∧
      earlier.filterMap LineEvent.line? = ["aé"] ∧
      events.filterMap LineEvent.line? = ["aé", "bc"] ∧
      ∃ front, events = front ++ [.line "bc"] := by
  intro before script
  have hsize : ∀ chunk, .bytes chunk ∈ script → chunk.length ≤ readSize := by
    simp [script, before, readSize]
  have hbefore : beforeEnd script = before ++ .failure "b" :: [.bytes [0x63]] := by decide
  have hunfinished : LineBuffer.unfinished (dataOf (beforeEnd script)) ≠ [] := by decide
  obtain ⟨-, hself, events, haccounts, hreports⟩ := reports_of_script script
  obtain ⟨earlier, later, hevents, hlines, -⟩ := haccounts.placed _ _ _ hbefore
  refine ⟨hsize, hself hsize, hbefore, hunfinished, events, earlier, later, hreports 6, hevents,
    hlines.trans (by decide), haccounts.lines.trans (by decide), ?_⟩
  obtain ⟨front, hfront⟩ := haccounts.last hunfinished
  have hlast : LineBuffer.lineText (LineBuffer.unfinished (dataOf (beforeEnd script))) = "bc" := by
    decide
  exact ⟨front, by rw [hfront, hlast]⟩

end Toolbench.LineSource
