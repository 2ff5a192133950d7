import Mathlib.Data.List.Induction
import Toolbench.Proofs.Diagnostic.Collection
import Toolbench.Proofs.Path.Normal

/-!
# A collection is a history

What a collection holds is a function of the calls made on it. Of the diagnostics that arrived
since everything was dropped last, it holds for each file the first of each range and message, in
order of arrival: `contents_of_calls` says so after every sequence of calls. The relation between
the two sides is `Refines`; `Refines.publish` is the one step, and every other call is made of it.
-/

namespace Toolbench

/-- Paths that are the same are the same as the same others. -/
theorem Path.same_congr {p q : Path} (h : p.same q = true) (other : Path) :
    other.same p = other.same q := by
  simp only [same, same_iff.1 h]

/-! ## Entries -/

section Entries

variable {α : Type} {path : Path} {value : α} {entries : List (Path × α)}

/-- The value of a path is what was set there last. -/
theorem entryAt?_setEntry (path other : Path) (value : α) (entries : List (Path × α)) :
    entryAt? other (setEntry path value entries)
      = if path.same other = true then some value else entryAt? other entries := by
  induction entries with
  | nil =>
      simp only [setEntry, entryAt?, List.find?_cons, List.find?_nil]
      cases path.same other <;> rfl
  | cons entry entries ih =>
      obtain ⟨key, old⟩ := entry
      by_cases hkey : key.same path = true
      · -- The key that stands for `path` stands for the same paths as `path` itself.
        have hsame : key.same other = path.same other := by
          simp only [Path.same, Path.same_iff.1 hkey]
        simp only [setEntry, hkey, if_true, entryAt?, List.find?_cons, hsame]
        cases path.same other <;> simp
      · simp only [setEntry, hkey, Bool.false_eq_true, if_false]
        by_cases hother : key.same other = true
        · have hpath : ¬ path.same other = true := by
            intro hpath
            rw [Path.same_iff] at *
            exact hkey (hother.trans hpath.symm)
          simp [entryAt?, hother, hpath]
        · have hrest : ∀ entries : List (Path × α),
              entryAt? other ((key, old) :: entries) = entryAt? other entries := by
            intro entries
            simp [entryAt?, hother]
          rw [hrest, hrest, ih]

/-- The keys stay, and a path without an entry gets one behind them. -/
theorem keys_setEntry :
    (setEntry path value entries).map (·.1)
      = entries.map (·.1)
        ++ if (∃ key ∈ entries.map (·.1), key.same path = true) then [] else [path] := by
  induction entries with
  | nil => simp [setEntry]
  | cons entry entries ih =>
      obtain ⟨key, old⟩ := entry
      by_cases hkey : key.same path = true
      · simp [setEntry, hkey]
      · simp only [setEntry, hkey, Bool.false_eq_true, if_false, List.map_cons, ih, List.mem_cons,
          exists_eq_or_imp, false_or, List.cons_append]

/-- A key was there before or is the path that was set. -/
theorem mem_keys_setEntry {entry : Path × α} (h : entry ∈ setEntry path value entries) :
    entry.1 ∈ entries.map (·.1) ∨ entry.1 = path := by
  have hkey := List.mem_map_of_mem (f := (·.1)) h
  rw [keys_setEntry, List.mem_append] at hkey
  refine hkey.imp_right fun hnew => ?_
  split at hnew
  · exact absurd hnew List.not_mem_nil
  · exact List.mem_singleton.1 hnew

/-- No two keys are the same. -/
theorem pairwise_keys_setEntry (h : (entries.map (·.1)).Pairwise fun p q => p.same q = false) :
    ((setEntry path value entries).map (·.1)).Pairwise fun p q => p.same q = false := by
  rw [keys_setEntry]
  split
  · rw [List.append_nil]
    exact h
  · rename_i hother
    refine List.pairwise_append.2 ⟨h, List.pairwise_singleton _ _, ?_⟩
    intro key hkey new hnew
    obtain rfl := List.mem_singleton.1 hnew
    exact Bool.eq_false_iff.2 fun hsame => hother ⟨key, hkey, hsame⟩

/-- An entry was there before or has the value that was set. -/
theorem mem_setEntry {entry : Path × α} (h : entry ∈ setEntry path value entries) :
    entry ∈ entries ∨ entry.2 = value := by
  induction entries with
  | nil => exact .inr (congrArg Prod.snd (List.mem_singleton.1 h))
  | cons first entries ih =>
      unfold setEntry at h
      split at h
      · rcases List.mem_cons.1 h with rfl | hrest
        · exact .inr rfl
        · exact .inl (List.mem_cons_of_mem _ hrest)
      · rcases List.mem_cons.1 h with rfl | hrest
        · exact .inl List.mem_cons_self
        · exact (ih hrest).imp_left (List.mem_cons_of_mem _)

end Entries

/-! ## The first of each kind -/

/-- To leave out repetitions is to add each element unless one before it stands for it. -/
theorem eraseDupsBy_concat {α : Type} (r : α → α → Bool) (as : List α) (b : α) :
    (as ++ [b]).eraseDupsBy r
      = if (as.eraseDupsBy r).any (r b) then as.eraseDupsBy r else as.eraseDupsBy r ++ [b] := by
  suffices hloop : ∀ seen, List.eraseDupsBy.loop r (as ++ [b]) seen
      = if (List.eraseDupsBy.loop r as seen).any (r b) then List.eraseDupsBy.loop r as seen
        else List.eraseDupsBy.loop r as seen ++ [b] from hloop []
  induction as with
  | nil =>
      intro seen
      simp only [List.nil_append, List.eraseDupsBy.loop, List.any_reverse]
      split <;> simp_all
  | cons a as ih =>
      intro seen
      by_cases hseen : seen.any (r a) = true
      · simpa only [List.cons_append, List.eraseDupsBy.loop, hseen] using ih seen
      · simpa only [List.cons_append, List.eraseDupsBy.loop, hseen] using ih (a :: seen)

namespace Diagnostic

variable {d : Diagnostic} {ds arrived : List Diagnostic}

/-- The first diagnostic of each range and message. -/
def firstOfEach (ds : List Diagnostic) : List Diagnostic :=
  ds.eraseDupsBy fun d e => e.repeats d

/-- A further diagnostic is among the first unless it repeats one of them. -/
theorem firstOfEach_concat (ds : List Diagnostic) (d : Diagnostic) :
    firstOfEach (ds ++ [d])
      = if (firstOfEach ds).any (·.repeats d) then firstOfEach ds else firstOfEach ds ++ [d] :=
  eraseDupsBy_concat _ ds d

/-- What repeats one of the diagnostics repeats the first of its kind. -/
theorem any_repeats_firstOfEach (ds : List Diagnostic) (d : Diagnostic) :
    (firstOfEach ds).any (·.repeats d) = ds.any (·.repeats d) := by
  induction ds using List.reverseRecOn with
  | nil => rfl
  | append_singleton ds e ih =>
      rw [firstOfEach_concat, List.any_append, ← ih]
      split
      · rename_i hrepeats
        -- `e` is left out, so another one stands for it.
        obtain ⟨first, hfirst, hsame⟩ := List.any_eq_true.1 hrepeats
        cases he : e.repeats d with
        | false => simp [he]
        | true =>
            have hagain : first.repeats d = true := by
              rw [repeats_iff] at *
              exact ⟨hsame.1.trans he.1, hsame.2.trans he.2⟩
            rw [List.any_eq_true.2 ⟨first, hfirst, hagain⟩, Bool.true_or]
      · rw [List.any_append]

/-- No diagnostic of the same file that arrived before has this range and message. -/
def IsNew (arrived : List Diagnostic) (d : Diagnostic) : Prop :=
  ∀ e ∈ arrived, e.path.same d.path = true → e.repeats d = false

instance : Decidable (IsNew arrived d) :=
  inferInstanceAs (Decidable (∀ e ∈ arrived, e.path.same d.path = true → e.repeats d = false))

/-- Those of further diagnostics that are new when they arrive. -/
def newOf (arrived : List Diagnostic) : List Diagnostic → List Diagnostic
  | [] => []
  | d :: ds => (if IsNew arrived d then [d] else []) ++ newOf (arrived ++ [d]) ds
termination_by structural ds => ds

/-- A diagnostic is new when no diagnostic of its file stands for it. -/
theorem isNew_iff {path : Path} (h : d.path.same path = true) :
    IsNew arrived d ↔
      (firstOfEach (arrived.filter (·.path.same path))).any (·.repeats d) = false := by
  rw [any_repeats_firstOfEach, List.any_eq_false]
  simp only [IsNew, List.mem_filter, and_imp, Bool.not_eq_true, Path.same_congr h]

/-- The first of a file become more when a new diagnostic of this file arrives, and only then. -/
theorem firstOfEach_filter_concat (arrived : List Diagnostic) (d : Diagnostic) (path : Path) :
    firstOfEach ((arrived ++ [d]).filter (·.path.same path))
      = firstOfEach (arrived.filter (·.path.same path))
        ++ if d.path.same path = true ∧ IsNew arrived d then [d] else [] := by
  by_cases hpath : d.path.same path = true
  · simp only [List.filter_append, List.filter_cons, hpath, if_true, List.filter_nil, true_and,
      isNew_iff hpath, firstOfEach_concat]
    cases (firstOfEach (arrived.filter (·.path.same path))).any (·.repeats d) <;> simp
  · simp [hpath]

end Diagnostic

namespace Collection

open Diagnostic (firstOfEach IsNew newOf)

/-! ## Calls -/

/-- What can be asked of a collection. -/
inductive Call where
  /-- Take in a diagnostic. -/
  | publish (directory : Path) (d : Diagnostic)
  /-- Take in diagnostics one after the other. -/
  | publishAll (directory : Path) (ds : List Diagnostic)
  /-- Drop everything. -/
  | clear
deriving DecidableEq, Repr

/-- The directory from which paths are seen. -/
def Call.directory? : Call → Option Path
  | .publish directory _ => some directory
  | .publishAll directory _ => some directory
  | .clear => none

/-- The diagnostics that a call hands in, each with the directory from which its path is seen. -/
def Call.offers : Call → List (Path × Diagnostic)
  | .publish directory d => [(directory, d)]
  | .publishAll directory ds => ds.map (directory, ·)
  | .clear => []

/-- The collection after a call, and what the editor is told. -/
def call (c : Collection) : Call → Collection × List EditorUpdate
  | .publish directory d => ((c.publish directory d).1, (c.publish directory d).2.toList)
  | .publishAll directory ds => c.publishAll directory ds
  | .clear => (c.clear.1, [c.clear.2])

/-- The collection after calls, and all that the editor is told. -/
def callAll : List Call → Collection → Collection × List EditorUpdate
  | [], c => (c, [])
  | first :: calls, c =>
      let (c, updates) := c.call first
      let (c, later) := c.callAll calls
      (c, updates ++ later)

/-- What has arrived since everything was dropped last, after one more call. -/
def arrivedAfter (arrived : List Diagnostic) : Call → List Diagnostic
  | .publish directory d => arrived ++ [d.resolvedIn directory]
  | .publishAll directory ds => arrived ++ ds.map (·.resolvedIn directory)
  | .clear => []

/-- The diagnostics that arrived since everything was dropped last, with their paths resolved. -/
def arrived (calls : List Call) : List Diagnostic :=
  calls.foldl arrivedAfter []

variable {c : Collection} {earlier : List Diagnostic}

/-- A diagnostic repeats another one of its file and nothing happens, or it is put behind the
others of its file and the editor is told. -/
theorem publish_cases (c : Collection) (directory : Path) (d : Diagnostic) :
    ((c.forPath (d.resolvedIn directory).path).any (·.repeats (d.resolvedIn directory)) = true ∧
      c.publish directory d = (c, none)) ∨
    ((c.forPath (d.resolvedIn directory).path).any (·.repeats (d.resolvedIn directory)) = false ∧
      ∃ ds, ds = c.forPath (d.resolvedIn directory).path ++ [d.resolvedIn directory] ∧
        c.publish directory d = (⟨setEntry (d.resolvedIn directory).path ds c.files⟩,
          some (.set (d.resolvedIn directory).path (ds.map Diagnostic.toEditor)))) := by
  unfold publish
  dsimp only
  split
  · rename_i hrepeats
    exact .inl ⟨hrepeats, rfl⟩
  · rename_i hnew
    exact .inr ⟨by simpa using hnew, _, rfl, rfl⟩

/-- Diagnostics are taken in one call at a time. -/
theorem publishAll_eq_callAll (directory : Path) (ds : List Diagnostic) (c : Collection) :
    c.publishAll directory ds = c.callAll (ds.map (.publish directory)) := by
  induction ds generalizing c with
  | nil => rfl
  | cons d ds ih =>
      simp only [publishAll, List.map_cons, callAll, call, ih]

/-- Calls are made one after the other. -/
theorem callAll_append (calls more : List Call) (c : Collection) :
    c.callAll (calls ++ more)
      = (((c.callAll calls).1.callAll more).1,
        (c.callAll calls).2 ++ ((c.callAll calls).1.callAll more).2) := by
  induction calls generalizing c with
  | nil => rfl
  | cons asked calls ih => simp only [List.cons_append, callAll, ih, List.append_assoc]

/-! ## The history that a collection stands for -/

/-- The collection holds, file by file, the first of each kind of what arrived. -/
structure Refines (c : Collection) (earlier : List Diagnostic) : Prop where
  forPath_eq : ∀ path, c.forPath path = firstOfEach (earlier.filter (·.path.same path))
  /-- A key was the path of a diagnostic when the file got its entry. -/
  keys : ∀ entry ∈ c.files, ∃ d ∈ earlier, d.path = entry.1
  distinct : (c.files.map (·.1)).Pairwise fun p q => p.same q = false
  nonempty : ∀ entry ∈ c.files, entry.2 ≠ []
  filed : c.Filed

/-- Nothing arrived in the empty collection. -/
theorem refines_empty : empty.Refines [] where
  forPath_eq _ := rfl
  keys _ hentry := absurd hentry List.not_mem_nil
  distinct := List.Pairwise.nil
  nonempty _ hentry := absurd hentry List.not_mem_nil
  filed := filed_empty

namespace Refines

/-- The diagnostics of the file repeat a diagnostic unless it is new. -/
theorem any_repeats_eq_false_iff (h : c.Refines earlier) (d : Diagnostic) :
    (c.forPath d.path).any (·.repeats d) = false ↔ IsNew earlier d := by
  rw [h.forPath_eq, Diagnostic.isNew_iff (Path.same_iff.2 rfl)]

/-- A diagnostic arrives that is not new, and the collection stays as it is. -/
theorem repeated (h : c.Refines earlier) {d : Diagnostic} (hnot : ¬ IsNew earlier d) :
    c.Refines (earlier ++ [d]) where
  forPath_eq path := by
    rw [Diagnostic.firstOfEach_filter_concat, if_neg (fun hboth => hnot hboth.2), List.append_nil,
      h.forPath_eq]
  keys entry hentry := by
    obtain ⟨e, he, hkey⟩ := h.keys entry hentry
    exact ⟨e, List.mem_append_left _ he, hkey⟩
  distinct := h.distinct
  nonempty := h.nonempty
  filed := h.filed

/-- A new diagnostic arrives and is put behind the others of its file. -/
theorem taken (h : c.Refines earlier) {d : Diagnostic} (hnew : IsNew earlier d) :
    Refines ⟨setEntry d.path (c.forPath d.path ++ [d]) c.files⟩ (earlier ++ [d]) where
  forPath_eq path := by
    rw [Diagnostic.firstOfEach_filter_concat]
    show (entryAt? path (setEntry d.path (c.forPath d.path ++ [d]) c.files)).getD [] = _
    rw [entryAt?_setEntry]
    by_cases hpath : d.path.same path = true
    · rw [if_pos hpath, if_pos ⟨hpath, hnew⟩, Option.getD_some, h.forPath_eq]
      simp only [Path.same_congr hpath]
    · rw [if_neg hpath, if_neg (fun hboth => hpath hboth.1), List.append_nil]
      exact h.forPath_eq path
  keys entry hentry := by
    rcases mem_keys_setEntry hentry with hformer | hpath
    · obtain ⟨former, hmem, hfst⟩ := List.mem_map.1 hformer
      obtain ⟨e, he, hkey⟩ := h.keys former hmem
      exact ⟨e, List.mem_append_left _ he, hkey.trans hfst⟩
    · exact ⟨d, List.mem_append_right _ (List.mem_singleton_self d), hpath.symm⟩
  distinct := pairwise_keys_setEntry h.distinct
  nonempty entry hentry := by
    rcases mem_setEntry hentry with hformer | hvalue
    · exact h.nonempty entry hformer
    · rw [hvalue]
      exact List.append_ne_nil_of_right_ne_nil _ (List.cons_ne_nil d [])
  filed := filed_setEntry rfl h.filed

/-- A diagnostic arrives. It is taken in when it is new. -/
theorem publish (h : c.Refines earlier) (directory : Path) (d : Diagnostic) :
    (c.publish directory d).1.Refines (earlier ++ [d.resolvedIn directory]) ∧
      ((c.publish directory d).2.isSome = true ↔ IsNew earlier (d.resolvedIn directory)) := by
  have hiff := h.any_repeats_eq_false_iff (d.resolvedIn directory)
  rcases publish_cases c directory d with ⟨hany, heq⟩ | ⟨hany, ds, hds, heq⟩
  · have hnot : ¬ IsNew earlier (d.resolvedIn directory) := by
      rw [← hiff, hany]
      exact nofun
    rw [heq]
    exact ⟨h.repeated hnot, by simp [hnot]⟩
  · have hnew := hiff.1 hany
    rw [heq, hds]
    exact ⟨h.taken hnew, by simp [hnew]⟩

/-- Diagnostics arrive. Those that are new are taken in. -/
theorem publishAll (h : c.Refines earlier) (directory : Path) (ds : List Diagnostic) :
    (c.publishAll directory ds).1.Refines (earlier ++ ds.map (·.resolvedIn directory)) ∧
      (c.publishAll directory ds).2.length
        = (newOf earlier (ds.map (·.resolvedIn directory))).length := by
  induction ds generalizing c earlier with
  | nil =>
      refine ⟨?_, rfl⟩
      rw [List.map_nil, List.append_nil]
      exact h
  | cons d ds ih =>
      obtain ⟨hnext, hsome⟩ := h.publish directory d
      obtain ⟨hlast, hlength⟩ := ih hnext
      have hone : (c.publish directory d).2.toList.length
          = (if IsNew earlier (d.resolvedIn directory) then [d.resolvedIn directory]
              else []).length := by
        by_cases hnew : IsNew earlier (d.resolvedIn directory)
        · obtain ⟨update, hupdate⟩ := Option.isSome_iff_exists.1 (hsome.2 hnew)
          simp [hupdate, hnew]
        · have hnone : (c.publish directory d).2 = none := by simpa using fun h => hnew (hsome.1 h)
          simp [hnone, hnew]
      refine ⟨?_, ?_⟩
      · rw [List.map_cons, List.append_cons]
        exact hlast
      · simp only [Collection.publishAll, List.map_cons, newOf, List.length_append, hone, hlength]

/-- A call is made. -/
theorem call (h : c.Refines earlier) (asked : Call) :
    (c.call asked).1.Refines (arrivedAfter earlier asked) := by
  cases asked with
  | publish directory d => exact (h.publish directory d).1
  | publishAll directory ds => exact (h.publishAll directory ds).1
  | clear => exact refines_empty

/-- Calls are made one after the other. -/
theorem callAll (h : c.Refines earlier) (calls : List Call) :
    (c.callAll calls).1.Refines (calls.foldl arrivedAfter earlier) := by
  induction calls generalizing c earlier with
  | nil => exact h
  | cons asked calls ih => exact ih (h.call asked)

/-- No diagnostic is held when there is no entry. -/
theorem isEmpty_iff (h : c.Refines earlier) :
    c.isEmpty = true ↔ ∀ path, c.forPath path = [] := by
  constructor
  · intro hempty path
    rw [forPath, List.isEmpty_iff.1 hempty]
    rfl
  · intro hnone
    refine List.isEmpty_iff.2 (List.eq_nil_iff_forall_not_mem.2 fun entry hentry => ?_)
    -- A look-up under the key of the entry finds a list, and no list is empty.
    cases hfound : c.files.find? (·.1.same entry.1) with
    | none =>
        have hnever := List.find?_eq_none.1 hfound entry hentry
        exact hnever (Path.same_iff.2 rfl)
    | some found =>
        have hnil := hnone entry.1
        rw [forPath, entryAt?, hfound] at hnil
        exact h.nonempty found (List.mem_of_find?_eq_some hfound) hnil

end Refines

/-- Everything that a call hands in is seen from its directory. -/
theorem Call.directory_of_mem_offers {asked : Call} {offer : Path × Diagnostic}
    (h : offer ∈ asked.offers) : offer.1 ∈ asked.directory? := by
  cases asked with
  | publish directory d =>
      rw [List.mem_singleton.1 h]
      exact rfl
  | publishAll directory ds =>
      obtain ⟨d, -, rfl⟩ := List.mem_map.1 h
      exact rfl
  | clear => exact absurd h List.not_mem_nil

/-- What has arrived was handed in. -/
theorem exists_offer_of_mem_arrived {calls : List Call} {d : Diagnostic} (h : d ∈ arrived calls) :
    ∃ offer ∈ calls.flatMap Call.offers, d = offer.2.resolvedIn offer.1 := by
  induction calls using List.reverseRecOn with
  | nil => exact absurd h List.not_mem_nil
  | append_singleton calls asked ih =>
      have hafter : arrived (calls ++ [asked]) = arrivedAfter (arrived calls) asked := by
        simp [arrived]
      rw [List.flatMap_append, List.flatMap_singleton]
      -- What is not from the last call has arrived before.
      have hbefore : d ∈ arrived calls → ∃ offer ∈ calls.flatMap Call.offers ++ asked.offers,
          d = offer.2.resolvedIn offer.1 := by
        intro hd
        obtain ⟨offer, hoffer, heq⟩ := ih hd
        exact ⟨offer, List.mem_append_left _ hoffer, heq⟩
      rw [hafter] at h
      cases asked with
      | publish directory e =>
          rcases List.mem_append.1 h with hd | hd
          · exact hbefore hd
          · exact ⟨(directory, e), List.mem_append_right _ (List.mem_singleton_self _),
              List.mem_singleton.1 hd⟩
      | publishAll directory es =>
          rcases List.mem_append.1 h with hd | hd
          · exact hbefore hd
          · obtain ⟨e, he, rfl⟩ := List.mem_map.1 hd
            exact ⟨(directory, e), List.mem_append_right _ (List.mem_map_of_mem he), rfl⟩
      | clear => exact absurd h List.not_mem_nil

/-- Where directories are absolute, what arrives has a normal path. -/
theorem isNormal_of_mem_arrived {calls : List Call}
    (h : ∀ asked ∈ calls, ∀ directory ∈ asked.directory?, directory.isAbsolute = true) :
    ∀ d ∈ arrived calls, d.path.IsNormal := by
  intro d hd
  obtain ⟨offer, hoffer, rfl⟩ := exists_offer_of_mem_arrived hd
  obtain ⟨asked, hasked, hmem⟩ := List.mem_flatMap.1 hoffer
  have hdirectory := h asked hasked offer.1 (Call.directory_of_mem_offers hmem)
  exact Path.isNormal_normalize (Path.isAbsolute_join hdirectory offer.2.path)

/-- When a diagnostic is taken in, the editor is told of its file. -/
theorem path_of_update_publish {directory path : Path} {d : Diagnostic}
    {ds : List EditorDiagnostic} (h : (c.publish directory d).2 = some (.set path ds)) :
    path = (d.resolvedIn directory).path := by
  rcases publish_cases c directory d with ⟨-, heq⟩ | ⟨-, taken, -, heq⟩
  · rw [heq] at h
    exact nomatch h
  · rw [heq, Option.some.injEq, EditorUpdate.set.injEq] at h
    exact h.1.symm

/-- When diagnostics are taken in, the editor is told of their files. -/
theorem exists_offer_of_update_publishAll {directory path : Path} {es : List Diagnostic}
    {ds : List EditorDiagnostic} (h : .set path ds ∈ (c.publishAll directory es).2) :
    ∃ e ∈ es, path = (e.resolvedIn directory).path := by
  induction es generalizing c with
  | nil => exact absurd h List.not_mem_nil
  | cons e es ih =>
      rcases List.mem_append.1 h with hfirst | hlater
      · exact ⟨e, List.mem_cons_self, path_of_update_publish (Option.mem_toList.1 hfirst)⟩
      · obtain ⟨other, hother, heq⟩ := ih hlater
        exact ⟨other, List.mem_cons_of_mem _ hother, heq⟩

/-- A file of which the editor is told is the place of a diagnostic that was handed in. -/
theorem exists_offer_of_update {calls : List Call} {path : Path} {ds : List EditorDiagnostic}
    (h : .set path ds ∈ (c.callAll calls).2) :
    ∃ offer ∈ calls.flatMap Call.offers, path = (offer.2.resolvedIn offer.1).path := by
  induction calls generalizing c with
  | nil => exact absurd h List.not_mem_nil
  | cons asked calls ih =>
      rw [List.flatMap_cons]
      rcases List.mem_append.1 h with hnow | hlater
      · cases asked with
        | publish directory d =>
            exact ⟨(directory, d), List.mem_append_left _ (List.mem_singleton_self _),
              path_of_update_publish (Option.mem_toList.1 hnow)⟩
        | publishAll directory es =>
            obtain ⟨e, he, heq⟩ := exists_offer_of_update_publishAll hnow
            exact ⟨(directory, e), List.mem_append_left _ (List.mem_map_of_mem he), heq⟩
        | clear => exact nomatch List.mem_singleton.1 hnow
      · obtain ⟨offer, hoffer, heq⟩ := ih hlater
        exact ⟨offer, List.mem_append_right _ hoffer, heq⟩

/-- A key is the place of a diagnostic that was handed in. -/
theorem exists_offer_of_mem_files {calls : List Call} {entry : Path × List Diagnostic}
    (h : entry ∈ (empty.callAll calls).1.files) :
    ∃ offer ∈ calls.flatMap Call.offers, entry.1 = (offer.2.resolvedIn offer.1).path := by
  obtain ⟨d, hd, hkey⟩ := (refines_empty.callAll calls).keys entry h
  obtain ⟨offer, hoffer, rfl⟩ := exists_offer_of_mem_arrived hd
  exact ⟨offer, hoffer, hkey.symm⟩

end Collection

end Toolbench
