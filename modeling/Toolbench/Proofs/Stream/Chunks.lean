import Mathlib.Data.List.DropRight
import Toolbench.Proofs.Text.Utf8
import Toolbench.Stream.LineBuffer

/-!
# Lines do not depend on chunks

However a stream is cut into chunks, `lines_of_chunks` says, the same lines come out: those of the
whole stream. Read `Follows.feed` first. A buffer that follows a stream holds the last piece of
what was read so far, and to take in a chunk is to cut one more part of the same stream, although
only the chunk is searched.
-/

namespace Toolbench

namespace Text

variable {α : Type} [DecidableEq α] {a : α}

/-- To cut a list is to cut its first part and go on with the last piece of it. -/
theorem splitOn_append (xs ys : List α) :
    (xs ++ ys).splitOn a
      = (xs.splitOn a).dropLast
        ++ (ys.splitOn a).modifyHead ((xs.splitOn a).getLastD [] ++ ·) := by
  induction xs with
  | nil =>
      cases hpieces : ys.splitOn a with
      | nil => exact absurd hpieces (List.splitOn_ne_nil a ys)
      | cons piece pieces => simp [hpieces]
  | cons x xs ih =>
      rw [List.cons_append, List.splitOn_cons_eq_if_modifyHead, ih,
        List.splitOn_cons_eq_if_modifyHead x xs]
      -- The first element either ends an empty piece or stands before the first piece.
      cases hpieces : xs.splitOn a with
      | nil => exact absurd hpieces (List.splitOn_ne_nil a xs)
      | cons piece pieces =>
          split
          · rfl
          · cases pieces with
            | nil =>
                simp only [List.dropLast_singleton, List.nil_append, List.modifyHead_cons,
                  List.getLastD_cons, List.getLastD_nil, List.modifyHead_modifyHead]
                rfl
            | cons => rfl

/-- The last piece is what follows the last separator. -/
theorem getLastD_splitOn (xs : List α) :
    (xs.splitOn a).getLastD [] = xs.rtakeWhile (· != a) := by
  induction xs using List.reverseRecOn with
  | nil => simp
  | append_singleton xs x ih =>
      rw [splitOn_append, List.rtakeWhile_concat, ← ih]
      by_cases hx : x = a <;> simp [List.splitOn_cons_eq_if_modifyHead, hx]

end Text

namespace LineBuffer

/-- Take in chunks one after the other. Returns the lines that they complete. -/
def feedAll : LineBuffer → List (List UInt8) → List String × LineBuffer
  | buffer, [] => ([], buffer)
  | buffer, chunk :: chunks =>
      let (lines, buffer) := buffer.feed chunk
      let (later, buffer) := buffer.feedAll chunks
      (lines ++ later, buffer)

/-- The lines of a whole stream, read at once: its pieces between line feeds, the last one only if
it is not empty. -/
def linesOf (bytes : List UInt8) : List String :=
  (Text.dropFinal [] (bytes.splitOn feedByte)).map lineText

/-- The bytes of lines, each with a line feed after it. -/
def bytesOf (lines : List String) : List UInt8 :=
  lines.flatMap fun line => Text.Utf8.encode line.toList ++ [feedByte]

/-- The lines of a stream that a line feed ends. -/
def completed (bytes : List UInt8) : List String :=
  (bytes.splitOn feedByte).dropLast.map lineText

/-- The buffer holds the last piece of these bytes. -/
def Follows (buffer : LineBuffer) (bytes : List UInt8) : Prop :=
  buffer.held = (bytes.splitOn feedByte).getLastD []

/-- Before the first chunk nothing was read. -/
theorem follows_empty : empty.Follows [] := rfl

namespace Follows

variable {buffer : LineBuffer} {bytes : List UInt8}

/-- The bytes held are those after the last line feed. -/
theorem held_eq (h : buffer.Follows bytes) : buffer.held = bytes.rtakeWhile (· != feedByte) :=
  h.trans (Text.getLastD_splitOn bytes)

/-- No line feed is held. -/
theorem feedByte_not_mem (h : buffer.Follows bytes) : feedByte ∉ buffer.held := by
  rw [h.held_eq]
  intro hmem
  simpa using List.mem_rtakeWhile_imp hmem

/-- A chunk completes the lines that it adds to the stream, and the buffer follows on. -/
theorem feed (h : buffer.Follows bytes) (chunk : List UInt8) :
    completed (bytes ++ chunk) = completed bytes ++ (buffer.feed chunk).1 ∧
      (buffer.feed chunk).2.Follows (bytes ++ chunk) := by
  have hpieces : (chunk.splitOn feedByte).modifyHead (buffer.held ++ ·) ≠ [] := by simp
  unfold completed Follows LineBuffer.feed
  rw [Text.splitOn_append, ← show buffer.held = _ from h]
  constructor
  · rw [List.dropLast_append_of_ne_nil hpieces, List.map_append]
  · obtain ⟨front, last, hlast⟩ := (List.eq_nil_or_concat _).resolve_left hpieces
    rw [hlast, List.concat_eq_append, ← List.append_assoc]
    simp

/-- Chunks complete the lines that they add to the stream, and the buffer follows on. -/
theorem feedAll (h : buffer.Follows bytes) (chunks : List (List UInt8)) :
    completed (bytes ++ chunks.flatten) = completed bytes ++ (buffer.feedAll chunks).1 ∧
      (buffer.feedAll chunks).2.Follows (bytes ++ chunks.flatten) := by
  -- The buffer changes with every chunk, so the induction is for any bytes read before.
  induction chunks generalizing buffer bytes with
  | nil =>
      rw [List.flatten_nil, List.append_nil]
      exact ⟨(List.append_nil _).symm, h⟩
  | cons chunk chunks ih =>
      obtain ⟨hlines, hnext⟩ := h.feed chunk
      obtain ⟨hlater, hlast⟩ := ih hnext
      rw [List.flatten_cons, ← List.append_assoc]
      refine ⟨?_, hlast⟩
      rw [hlater, hlines, List.append_assoc]
      rfl

/-- At the end the held bytes are the last line, if there are any. -/
theorem finish (h : buffer.Follows bytes) :
    completed bytes ++ buffer.finish.1.toList = linesOf bytes := by
  obtain ⟨front, last, hpieces⟩ :=
    (List.eq_nil_or_concat (bytes.splitOn feedByte)).resolve_left (List.splitOn_ne_nil _ _)
  rw [List.concat_eq_append] at hpieces
  have hheld : buffer.held = last := by
    rw [show buffer.held = _ from h, hpieces]
    simp
  unfold completed linesOf LineBuffer.finish hasPartial
  rw [hpieces, List.dropLast_concat, Text.dropFinal_concat_eq, List.map_append, hheld]
  by_cases hlast : last = [] <;> simp [hlast]

end Follows

/-- The bytes of a stream after its last line feed. -/
def unfinished (bytes : List UInt8) : List UInt8 :=
  bytes.rtakeWhile (· != feedByte)

/-- The lines of a stream are the complete ones, and then what no line feed ends. -/
theorem linesOf_eq (bytes : List UInt8) :
    linesOf bytes = completed bytes ++
      if unfinished bytes = [] then [] else [lineText (unfinished bytes)] := by
  have hfollows : Follows ⟨unfinished bytes⟩ bytes := (Text.getLastD_splitOn bytes).symm
  rw [← hfollows.finish]
  congr 1
  by_cases htail : unfinished bytes = [] <;> simp [LineBuffer.finish, hasPartial, htail]

/-- The lines that are complete in the first part of a stream are its first lines. -/
theorem completed_prefix_linesOf (bytes more : List UInt8) :
    completed bytes <+: linesOf (bytes ++ more) := by
  have hfollows : Follows ⟨(bytes.splitOn feedByte).getLastD []⟩ bytes := rfl
  obtain ⟨hlines, hnext⟩ := hfollows.feed more
  rw [← hnext.finish, hlines, List.append_assoc]
  exact List.prefix_append _ _

/-! ## Lines that were written as text -/

/-- The bytes of a text without line feeds have none. -/
theorem feedByte_not_mem_encode {cs : List Char} (h : '\n' ∉ cs) :
    feedByte ∉ Text.Utf8.encode cs :=
  fun hmem => h (Text.Utf8.mem_of_mem_encode rfl (by decide) hmem)

/-- A text that does not end in a carriage return is read back from its bytes. -/
theorem lineText_encode {line : String} (h : line.toList.getLast? ≠ some '\r') :
    lineText (Text.Utf8.encode line.toList) = line := by
  have hlast : (Text.Utf8.encode line.toList).getLast? ≠ some returnByte :=
    fun hbyte => h (Text.Utf8.getLast?_of_getLast?_encode rfl (by decide) hbyte)
  rw [lineText, Text.dropFinal_eq_self hlast, Text.Utf8.decode_encode, String.ofList_toList]

/-- Written lines are complete, and each is read back. -/
theorem completed_bytesOf {lines : List String}
    (h : ∀ line ∈ lines, '\n' ∉ line.toList ∧ line.toList.getLast? ≠ some '\r') :
    completed (bytesOf lines) = lines ∧ (bytesOf lines).rtakeWhile (· != feedByte) = [] := by
  have hbytes : bytesOf lines
      = (lines.map fun line => Text.Utf8.encode line.toList).flatMap (· ++ [feedByte]) := by
    rw [List.flatMap_map]
    rfl
  have hpieces : (bytesOf lines).splitOn feedByte
      = lines.map (fun line => Text.Utf8.encode line.toList) ++ [[]] := by
    rw [hbytes]
    refine Text.splitOn_flatMap_concat fun piece hpiece => ?_
    obtain ⟨line, hline, rfl⟩ := List.mem_map.1 hpiece
    exact feedByte_not_mem_encode (h line hline).1
  constructor
  · rw [completed, hpieces, List.dropLast_concat, List.map_map]
    exact (List.map_congr_left fun line hline => lineText_encode (h line hline).2).trans
      (List.map_id lines)
  · rw [← Text.getLastD_splitOn, hpieces]
    simp

end LineBuffer

end Toolbench
