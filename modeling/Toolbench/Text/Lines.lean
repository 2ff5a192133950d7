/-!
# Lines of a text

A text is cut at its line feeds. A line that a line feed ends loses one carriage return before
it; the text after the last line feed is a line only if it is not empty, and keeps a final
carriage return. `lines_unlines` says that writing lines and cutting the result gives them back,
each without one final carriage return.
-/

namespace Toolbench.Text

/-- The list without one final occurrence of `x`, if it ends in one. -/
def dropFinal {α : Type} [DecidableEq α] (x : α) (xs : List α) : List α :=
  if xs.getLast? = some x then xs.dropLast else xs

/-- The lines among the pieces between line feeds: every piece but the last was ended by a line
feed, the last one counts only when it is not empty. -/
def linesOfPieces : List (List Char) → List (List Char)
  | [] => []
  | [tail] => if tail = [] then [] else [tail]
  | piece :: next :: rest => dropFinal '\r' piece :: linesOfPieces (next :: rest)

/-- The lines of a text. -/
def lines (text : List Char) : List (List Char) :=
  linesOfPieces (text.splitOn '\n')

/-- The text in which a line feed follows each line. -/
def unlines (ls : List (List Char)) : List Char :=
  ls.flatMap (· ++ ['\n'])

/-- The lines of a string. -/
def stringLines (text : String) : List String :=
  (lines text.toList).map String.ofList

theorem dropFinal_eq_self {α : Type} [DecidableEq α] {x : α} {xs : List α}
    (h : xs.getLast? ≠ some x) : dropFinal x xs = xs := by
  simp [dropFinal, h]

@[simp] theorem dropFinal_concat {α : Type} [DecidableEq α] (x : α) (xs : List α) :
    dropFinal x (xs ++ [x]) = xs := by
  simp [dropFinal]

/-- A list whose last element is no `x` loses the last element, or nothing. -/
theorem dropFinal_concat_eq {α : Type} [DecidableEq α] (x last : α) (front : List α) :
    dropFinal x (front ++ [last]) = front ++ if last = x then [] else [last] := by
  by_cases hlast : last = x <;> simp [dropFinal, hlast]

/-- A list that loses something ends in `x`. -/
theorem dropFinal_eq_self_or {α : Type} [DecidableEq α] (x : α) (xs : List α) :
    dropFinal x xs = xs ∨ ∃ front, xs = front ++ [x] := by
  by_cases hlast : xs.getLast? = some x
  · exact .inr (List.getLast?_eq_some_iff.1 hlast)
  · exact .inl (dropFinal_eq_self hlast)

/-- The lines are the pieces that line feeds end, and then the last one if it is not empty. -/
theorem linesOfPieces_eq {pieces : List (List Char)} (hne : pieces ≠ []) :
    linesOfPieces pieces
      = pieces.dropLast.map (dropFinal '\r') ++ [pieces.getLastD []].filter (· ≠ []) := by
  induction pieces with
  | nil => exact absurd rfl hne
  | cons piece pieces ih =>
      cases pieces with
      | nil => by_cases hpiece : piece = [] <;> simp [linesOfPieces, hpiece]
      | cons next rest =>
          rw [linesOfPieces, ih (List.cons_ne_nil next rest)]
          rfl

@[simp] theorem lines_nil : lines [] = [] := by
  simp [lines, linesOfPieces]

/-- Cutting off the first line of a text. -/
theorem lines_append_newline {line : List Char} (rest : List Char) (h : '\n' ∉ line) :
    lines (line ++ '\n' :: rest) = dropFinal '\r' line :: lines rest := by
  unfold lines
  rw [List.splitOn_append_cons_self, List.splitOn_eq_singleton h]
  cases hrest : rest.splitOn '\n' with
  | nil => exact absurd hrest (List.splitOn_ne_nil _ _)
  | cons piece pieces => rfl

theorem unlines_cons (line : List Char) (ls : List (List Char)) :
    unlines (line :: ls) = line ++ '\n' :: unlines ls := by
  simp [unlines]

/-- Pieces without the separator are read back when each is followed by one. -/
theorem splitOn_flatMap_concat {α : Type} [DecidableEq α] {a : α} {pieces : List (List α)}
    (h : ∀ piece ∈ pieces, a ∉ piece) :
    (pieces.flatMap (· ++ [a])).splitOn a = pieces ++ [[]] := by
  induction pieces with
  | nil => simp
  | cons piece pieces ih =>
      obtain ⟨hpiece, hrest⟩ := List.forall_mem_cons.1 h
      rw [List.flatMap_cons, List.append_assoc, List.singleton_append,
        List.splitOn_append_cons_self_of_not_mem hpiece, ih hrest]
      rfl

/-- Lines without line feeds are the pieces of their text, but for the empty piece at its end. -/
theorem splitOn_unlines {ls : List (List Char)} (h : ∀ line ∈ ls, '\n' ∉ line) :
    (unlines ls).splitOn '\n' = ls ++ [[]] :=
  splitOn_flatMap_concat h

/-- Lines without line feeds are read back from their text, each without one final carriage
return. -/
theorem lines_unlines {ls : List (List Char)} (h : ∀ line ∈ ls, '\n' ∉ line) :
    lines (unlines ls) = ls.map (dropFinal '\r') := by
  induction ls with
  | nil => simp [unlines]
  | cons line ls ih =>
      obtain ⟨hline, hrest⟩ := List.forall_mem_cons.1 h
      rw [unlines_cons, lines_append_newline _ hline, ih hrest, List.map_cons]

end Toolbench.Text
