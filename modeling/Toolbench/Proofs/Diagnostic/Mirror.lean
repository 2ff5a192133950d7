import Mathlib.Data.List.Forall2
import Toolbench.Proofs.Diagnostic.Contents

/-!
# The editor shows the collection

An editor that keeps what it is told, starting with nothing, shows after every call the files of
the collection with their diagnostics: `view_of_calls`. What is shown is the image of what is held
(`view`), and each update does to the image what its call does to the collection
(`replay_publish`).
-/

namespace Toolbench

section Entries

variable {α β : Type} (f : α → β) (path : Path) (value : α) (entries : List (Path × α))

/-- To set a value and then map all values is to map them first. -/
theorem setEntry_map :
    setEntry path (f value) (entries.map fun entry => (entry.1, f entry.2))
      = (setEntry path value entries).map fun entry => (entry.1, f entry.2) := by
  induction entries with
  | nil => rfl
  | cons entry entries ih =>
      by_cases hkey : entry.1.same path = true
      · simp only [setEntry, List.map_cons, hkey, if_true]
      · simp only [setEntry, List.map_cons, hkey, Bool.false_eq_true, if_false, ih]

/-- The value at a path is mapped with the others. -/
theorem entryAt?_map :
    entryAt? path (entries.map fun entry => (entry.1, f entry.2))
      = (entryAt? path entries).map f := by
  unfold entryAt?
  rw [List.find?_map, Option.map_map, Option.map_map]
  rfl

end Entries

/-- The editor shows a diagnostic: its severity, message and code, and its range with lines and
columns counted from zero, where zero stays zero. -/
structure EditorDiagnostic.Shows (shown : EditorDiagnostic) (d : Diagnostic) : Prop where
  startLine : shown.range.startLine.toNat = d.range.startLine.toNat - 1
  startColumn : shown.range.startColumn.toNat = d.range.startColumn.toNat - 1
  endLine : shown.range.endLine.toNat = d.range.endLine.toNat - 1
  endColumn : shown.range.endColumn.toNat = d.range.endColumn.toNat - 1
  severity : shown.severity = d.severity
  message : shown.message = d.message
  code : shown.code = d.code

/-- What the editor is told of a diagnostic shows it. -/
theorem Diagnostic.shows_toEditor (d : Diagnostic) : d.toEditor.Shows d where
  startLine := Text.Word.toNat_pred d.range.startLine
  startColumn := Text.Word.toNat_pred d.range.startColumn
  endLine := Text.Word.toNat_pred d.range.endLine
  endColumn := Text.Word.toNat_pred d.range.endColumn
  severity := rfl
  message := rfl
  code := rfl

/-- What the editor is told of diagnostics shows them in their order. -/
theorem Diagnostic.forall₂_shows_map (ds : List Diagnostic) :
    List.Forall₂ EditorDiagnostic.Shows (ds.map Diagnostic.toEditor) ds :=
  List.forall₂_map_left_iff.2 (List.forall₂_same.2 fun d _ => d.shows_toEditor)

namespace Collection

open Diagnostic (firstOfEach IsNew)
open EditorDiagnostic (Shows)

variable {c : Collection}

/-- The files of the collection with their diagnostics as an editor shows them. -/
def view (c : Collection) : List (Path × List EditorDiagnostic) :=
  c.files.map fun entry => (entry.1, entry.2.map Diagnostic.toEditor)

/-- What an editor shows that showed some files and was then told of changes. -/
def replay (shown : List (Path × List EditorDiagnostic)) (updates : List EditorUpdate) :
    List (Path × List EditorDiagnostic) :=
  updates.foldl EditorUpdate.apply shown

/-- Updates are followed one list after the other. -/
theorem replay_append (shown : List (Path × List EditorDiagnostic))
    (updates later : List EditorUpdate) :
    replay shown (updates ++ later) = replay (replay shown updates) later :=
  List.foldl_append

/-- The editor follows when a diagnostic is taken in or is not. -/
theorem replay_publish (c : Collection) (directory : Path) (d : Diagnostic) :
    replay c.view (c.publish directory d).2.toList = (c.publish directory d).1.view := by
  rcases publish_cases c directory d with ⟨-, heq⟩ | ⟨-, ds, -, heq⟩
  · rw [heq]
    rfl
  · rw [heq]
    exact setEntry_map (List.map Diagnostic.toEditor) _ ds c.files

/-- The editor follows when diagnostics are taken in. -/
theorem replay_publishAll (c : Collection) (directory : Path) (ds : List Diagnostic) :
    replay c.view (c.publishAll directory ds).2 = (c.publishAll directory ds).1.view := by
  induction ds generalizing c with
  | nil => rfl
  | cons d ds ih =>
      show replay c.view ((c.publish directory d).2.toList
        ++ (publishAll directory ds (c.publish directory d).1).2) = _
      rw [replay_append, replay_publish]
      exact ih (c.publish directory d).1

/-- The editor follows a call. -/
theorem replay_call (c : Collection) (asked : Call) :
    replay c.view (c.call asked).2 = (c.call asked).1.view := by
  cases asked with
  | publish directory d => exact replay_publish c directory d
  | publishAll directory ds => exact replay_publishAll c directory ds
  | clear => rfl

/-- The editor follows calls. -/
theorem replay_callAll (c : Collection) (calls : List Call) :
    replay c.view (c.callAll calls).2 = (c.callAll calls).1.view := by
  induction calls generalizing c with
  | nil => rfl
  | cons asked calls ih =>
      show replay c.view ((c.call asked).2 ++ (callAll calls (c.call asked).1).2) = _
      rw [replay_append, replay_call]
      exact ih (c.call asked).1

/-- A diagnostic that is not new changes nothing and is not told. -/
theorem Refines.call_publish_eq_iff {earlier : List Diagnostic} (h : c.Refines earlier)
    (directory : Path) (d : Diagnostic) :
    (c.call (.publish directory d) = (c, []) ↔ ¬ IsNew earlier (d.resolvedIn directory)) ∧
      ((∃ ds, (c.call (.publish directory d)).2 = [.set (d.resolvedIn directory).path ds]) ↔
        IsNew earlier (d.resolvedIn directory)) := by
  have hiff := h.any_repeats_eq_false_iff (d.resolvedIn directory)
  rcases publish_cases c directory d with ⟨hany, heq⟩ | ⟨hany, ds, -, heq⟩
  · have hnot : ¬ IsNew earlier (d.resolvedIn directory) := by
      rw [← hiff, hany]
      exact nofun
    simp [Collection.call, heq, hnot]
  · simp [Collection.call, heq, hiff.1 hany]

/-- After any calls an editor that started with nothing and kept what it was told shows the files
of the collection, each with its diagnostics in order of arrival. A diagnostic that is not new is
not told, a new one is told once, and so is that everything was dropped. Diagnostics that are taken
in together are told one at a time, so the editor shows the collection in between as well. -/
theorem view_of_calls (calls : List Call) :
    let c := (empty.callAll calls).1
    let shown := replay [] (empty.callAll calls).2
    List.Forall₂ (fun view file => view.1 = file.1 ∧ List.Forall₂ Shows view.2 file.2)
      shown c.files ∧
    (∀ path, List.Forall₂ Shows ((entryAt? path shown).getD [])
      (firstOfEach ((arrived calls).filter (·.path.same path)))) ∧
    (∀ directory d, c.call (.publish directory d) = (c, []) ↔
      ¬ IsNew (arrived calls) (d.resolvedIn directory)) ∧
    (∀ directory d,
      (∃ ds, (c.call (.publish directory d)).2 = [.set (d.resolvedIn directory).path ds]) ↔
        IsNew (arrived calls) (d.resolvedIn directory)) ∧
    c.call .clear = (empty, [.clear]) ∧
    ∀ directory ds,
      c.call (.publishAll directory ds) = c.callAll (ds.map (.publish directory)) := by
  intro c shown
  have hrefines : c.Refines (arrived calls) := refines_empty.callAll calls
  have hview : shown = c.view := replay_callAll empty calls
  refine ⟨?_, fun path => ?_, fun directory d => (hrefines.call_publish_eq_iff directory d).1,
    fun directory d => (hrefines.call_publish_eq_iff directory d).2, rfl,
    fun directory ds => publishAll_eq_callAll directory ds c⟩
  · rw [hview]
    exact List.forall₂_map_left_iff.2
      (List.forall₂_same.2 fun file _ => ⟨rfl, Diagnostic.forall₂_shows_map file.2⟩)
  · rw [hview, view, entryAt?_map, ← hrefines.forPath_eq, forPath]
    cases entryAt? path c.files with
    | none => exact List.Forall₂.nil
    | some ds => exact Diagnostic.forall₂_shows_map ds

example : (empty.callAll [.publish ⟨"/w"⟩ ⟨⟨"a.rs"⟩, .point 0 3, .hint, "x", none⟩]).2
    = [.set ⟨"/w/a.rs"⟩ [⟨⟨0, 2, 0, 2⟩, .hint, "x", none⟩]] := by decide

end Collection

end Toolbench
