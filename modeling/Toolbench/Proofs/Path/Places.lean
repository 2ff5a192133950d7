import Mathlib.Logic.Relation
import Toolbench.Diagnostic.Basic
import Toolbench.Proofs.Path.Joining

/-!
# Paths that lead to the same place

The place that a path leads to can be said without resolving it: it stays the same when a `.` is
dropped, a name together with the `..` behind it, or a `..` at the root (`Shortens`), and two paths
lead to the same place when such changes, made in either direction, turn one into the other
(`SamePlace`). `normalize_eq_iff_samePlace` says that these are the paths that are normalized alike,
and `places_of_paths` what follows for diagnostics whose paths are seen from a directory.
-/

namespace Toolbench.Path

variable {p q w : Path} {components : List Component}

/-! ## One place, many paths -/

/-- A list of components with one detour less. In a path nothing stands before the root. -/
inductive Shortens : List Component → List Component → Prop
  | current (before after) : Shortens (before ++ .current :: after) (before ++ after)
  | back (before text after) :
      Shortens (before ++ .name text :: .parent :: after) (before ++ after)
  | top (before after) :
      Shortens (before ++ .root :: .parent :: after) (before ++ .root :: after)

/-- The paths differ in detours only. -/
def SamePlace (p q : Path) : Prop :=
  Relation.EqvGen Shortens p.components q.components

@[simp] theorem resolveOnto_current (stack : List Component) :
    resolveOnto stack .current = stack := by
  cases stack <;> rfl

/-- A detour is not seen in what a list resolves to. -/
theorem Shortens.resolve_eq {longer shorter : List Component} (h : Shortens longer shorter) :
    resolve longer = resolve shorter := by
  unfold resolve
  cases h with
  | current before after =>
      rw [List.foldl_append, List.foldl_cons, resolveOnto_current, ← List.foldl_append]
  | back before text after =>
      rw [List.foldl_append, List.foldl_cons, List.foldl_cons, resolveOnto_name, List.foldl_append]
      rfl
  | top before after =>
      rw [List.foldl_append, List.foldl_cons, List.foldl_cons, List.foldl_append, List.foldl_cons]
      cases before.foldl resolveOnto [] <;> rfl

/-- One more component onto a stack drops a detour or none. -/
theorem eqvGen_resolveOnto (stack : List Component) (component : Component)
    (rest : List Component) :
    Relation.EqvGen Shortens (stack.reverse ++ component :: rest)
      ((resolveOnto stack component).reverse ++ rest) := by
  have hpush : Relation.EqvGen Shortens (stack.reverse ++ component :: rest)
      ((component :: stack).reverse ++ rest) := by
    rw [List.reverse_cons, List.append_assoc]
    exact .refl _
  cases component with
  | current => rw [resolveOnto_current]; exact .rel _ _ (.current _ _)
  | root => cases stack <;> exact hpush
  | name text => rw [resolveOnto_name]; exact hpush
  | parent =>
      cases stack with
      | nil => exact hpush
      | cons last before =>
          cases last with
          | current | parent => exact hpush
          | root =>
              show Relation.EqvGen Shortens _ ((.root :: before).reverse ++ rest)
              rw [List.reverse_cons, List.append_assoc, List.append_assoc]
              exact .rel _ _ (.top _ _)
          | name text =>
              rw [List.reverse_cons, List.append_assoc]
              exact .rel _ _ (.back _ _ _)

/-- Resolving drops detours only. -/
theorem eqvGen_resolve (components : List Component) :
    Relation.EqvGen Shortens components (resolve components) := by
  -- What is resolved already stands on the stack, so the induction is for any stack.
  have honto : ∀ stack rest : List Component, Relation.EqvGen Shortens (stack.reverse ++ rest)
      (rest.foldl resolveOnto stack).reverse := by
    intro stack rest
    induction rest generalizing stack with
    | nil => rw [List.append_nil]; exact .refl _
    | cons component rest ih =>
        exact (eqvGen_resolveOnto stack component rest).trans _ _ _
          (ih (resolveOnto stack component))
  exact honto [] components

/-- Lists that differ in detours resolve to the same list. -/
theorem resolve_eq_of_eqvGen {xs ys : List Component} (h : Relation.EqvGen Shortens xs ys) :
    resolve xs = resolve ys := by
  induction h with
  | rel _ _ h => exact h.resolve_eq
  | refl _ => rfl
  | symm _ _ _ ih => exact ih.symm
  | trans _ _ _ _ _ ih ih' => exact ih.trans ih'

/-- Paths are normalized alike exactly when they lead to the same place. -/
theorem normalize_eq_iff_samePlace : p.normalize = q.normalize ↔ p.SamePlace q := by
  rw [normalize_eq_iff, ← List.reverse_inj, ← resolve_components, ← resolve_components]
  constructor
  · intro h
    have hback := (eqvGen_resolve q.components).symm
    rw [← h] at hback
    exact (eqvGen_resolve p.components).trans _ _ _ hback
  · exact resolve_eq_of_eqvGen

/-! ## Joining component by component -/

/-- The path with further components joined to it one by one. -/
def extend (base : Path) (components : List Component) : Path :=
  components.foldl (fun base component => base.join ⟨component.text⟩) base

/-- A component that can stand between slashes, or a `.`, is joined as one more step. -/
theorem stack_join_component {component : Component}
    (h : component = .current ∨ component.IsProper) (base : Path) :
    (base.join ⟨component.text⟩).stack = resolveOnto base.stack component := by
  rcases h with rfl | hproper
  · have hrelative : isAbsolute ⟨Component.current.text⟩ = false := by decide
    rw [stack_join base hrelative, resolveOnto_current]
    rfl
  · obtain ⟨hrelative, hsteps, -⟩ := steps_ofComponents (List.forall_mem_singleton.2 hproper)
    have htext : ofComponents [component] = ⟨component.text⟩ := by
      cases component with
      | root => exact absurd hproper Component.not_isProper_root
      | current | parent | name => simp [ofComponents]
    rw [htext] at hrelative hsteps
    rw [stack_join base hrelative, hsteps]
    rfl

/-- Components that can stand between slashes are taken as steps, one by one. -/
theorem stack_extend (h : ∀ c ∈ components, c = .current ∨ c.IsProper) (base : Path) :
    (base.extend components).stack = components.foldl resolveOnto base.stack := by
  induction components generalizing base with
  | nil => rfl
  | cons component rest ih =>
      obtain ⟨hcomponent, hrest⟩ := List.forall_mem_cons.1 h
      rw [List.foldl_cons, ← stack_join_component hcomponent base]
      exact ih hrest _

/-- The components of a relative path are its steps, after a `.` that it may begin with. -/
theorem components_of_not_isAbsolute (h : p.isAbsolute = false) :
    p.components = p.steps ∨ p.components = .current :: p.steps := by
  by_cases hcurrent : p.pieces.head? = some "."
  · obtain ⟨rest, hpieces⟩ := List.head?_eq_some_iff.1 hcurrent
    right
    rw [components, if_neg (by simp [h]), steps, hpieces]
    rfl
  · exact .inl (components_of_relative h hcurrent)

/-- A relative path is joined as a whole to where its components lead one by one. -/
theorem stack_extend_components (h : p.isAbsolute = false) (base : Path) :
    (base.extend p.components).stack = (base.join p).stack ∧
      ∀ c ∈ p.components, c = .current ∨ c.IsProper := by
  have hsteps : ∀ c ∈ p.steps, c = .current ∨ c.IsProper :=
    fun _ hc => .inr (isProper_of_mem_steps hc)
  rw [stack_join base h]
  rcases components_of_not_isAbsolute h with heq | heq
  · rw [heq]
    exact ⟨stack_extend hsteps base, hsteps⟩
  · have hall : ∀ c ∈ .current :: p.steps, c = .current ∨ c.IsProper :=
      List.forall_mem_cons.2 ⟨.inl rfl, hsteps⟩
    rw [heq]
    exact ⟨by rw [stack_extend hall, List.foldl_cons, resolveOnto_current], hall⟩

/-- Into a directory and back out of it leads nowhere else. -/
theorem stack_extend_back {text : String} (hname : (Component.name text).IsName)
    (hp : p.isAbsolute = false) (base : Path) :
    (base.extend (.name text :: .parent :: p.components)).stack = (base.join p).stack := by
  obtain ⟨hwhole, hall⟩ := stack_extend_components hp base
  have hparent : Component.parent.IsProper := ⟨by decide, rfl⟩
  rw [stack_extend (List.forall_mem_cons.2 ⟨.inr hname.1, List.forall_mem_cons.2
    ⟨.inr hparent, hall⟩⟩), List.foldl_cons, List.foldl_cons, resolveOnto_name, ← hwhole,
    stack_extend hall]
  rfl

/-! ## Where a normalized path leads -/

/-- An absolute path is normalized to names below the root, a relative one to names after as many
`..`s as it leads up. -/
theorem parent_of_normalize (p : Path) :
    (p.isAbsolute = true → .parent ∉ p.normalize.components) ∧
    (p.isAbsolute = false → ∃ names, .parent ∉ names ∧
      p.normalize.components = List.replicate p.ups .parent ++ names) := by
  rw [components_normalize]
  constructor
  · intro h
    obtain ⟨names, hstack, hnames⟩ := stack_of_isAbsolute h
    rw [List.mem_reverse, hstack, List.mem_append, not_or]
    exact ⟨fun hmem => (hnames _ hmem).2 rfl, by decide⟩
  · intro h
    obtain ⟨names, hstack, -, hnames⟩ := stack_of_relative h
    refine ⟨names.reverse, fun hmem => (hnames _ (List.mem_reverse.1 hmem)).2 rfl, ?_⟩
    rw [hstack, List.reverse_append, List.reverse_replicate]

/-- The path of a diagnostic that is seen from an absolute directory is absolute, and looks the
same from every other directory. -/
theorem resolvedIn_of_isAbsolute (hw : w.isAbsolute = true) (d : Diagnostic) :
    (d.resolvedIn w).path.isAbsolute = true ∧
      ∀ v, (d.resolvedIn w).resolvedIn v = d.resolvedIn w := by
  have habsolute : (w.join d.path).normalize.isAbsolute = true := by
    rw [isAbsolute_normalize, isAbsolute_join_eq, hw, Bool.true_or]
  refine ⟨habsolute, fun v => ?_⟩
  have hagain : (v.join (w.join d.path).normalize).normalize = (w.join d.path).normalize := by
    rw [join_of_isAbsolute v habsolute, normalize_eq_iff, stack_normalize]
  simp only [Diagnostic.resolvedIn, hagain]

/-- Normalizing twice is normalizing once. A normalized path begins where the path does and has no
`.`, and it has no `..` but where a relative path leads up before anything else. Two paths are
normalized alike exactly when they lead to the same place; so are a path that leads into a directory
and back and the path without this detour, and what is seen from a directory and from the normalized
directory. Hence a diagnostic seen from an absolute directory has an absolute path, for which only
the place of the directory counts and which is seen alike from everywhere, and two diagnostics come
to lie under one path exactly when their paths lead from the directory to the same place. -/
theorem places_of_paths :
    (∀ p : Path, p.normalize.normalize = p.normalize ∧
      p.normalize.isAbsolute = p.isAbsolute ∧
      .current ∉ p.normalize.components ∧
      (p.isAbsolute = true → .parent ∉ p.normalize.components) ∧
      (p.isAbsolute = false → ∃ ups names, .parent ∉ names ∧
        p.normalize.components = List.replicate ups .parent ++ names)) ∧
    (∀ p q : Path, p.normalize = q.normalize ↔ p.SamePlace q) ∧
    (∀ (a b : Path) (x : String), (Component.name x).IsName → b.isAbsolute = false →
      (a.extend (.name x :: .parent :: b.components)).normalize
          = (a.extend b.components).normalize ∧
        (a.extend b.components).normalize = (a.join b).normalize) ∧
    (∀ w p : Path, (w.join p).normalize = (w.normalize.join p).normalize) ∧
    ∀ w : Path, w.isAbsolute = true → ∀ d e : Diagnostic,
      (d.resolvedIn w).path.isAbsolute = true ∧
      (∀ v : Path, v.normalize = w.normalize → d.resolvedIn v = d.resolvedIn w) ∧
      (∀ v : Path, (d.resolvedIn w).resolvedIn v = d.resolvedIn w) ∧
      ((d.resolvedIn w).path = (e.resolvedIn w).path
        ↔ (w.join d.path).SamePlace (w.join e.path)) ∧
      (d.path.SamePlace e.path → (d.resolvedIn w).path = (e.resolvedIn w).path) := by
  refine ⟨fun p => ⟨?_, isAbsolute_normalize p, current_not_mem_components_normalize p,
    (parent_of_normalize p).1, fun h => ⟨p.ups, (parent_of_normalize p).2 h⟩⟩,
    fun p q => normalize_eq_iff_samePlace, fun a b x hx hb => ⟨?_, ?_⟩,
    fun w p => (normalize_normalize_join w p).symm, fun w hw d e => ⟨?_, fun v hv => ?_, ?_,
    normalize_eq_iff_samePlace, fun hplace => ?_⟩⟩
  · rw [normalize_eq_iff, stack_normalize]
  · rw [normalize_eq_iff, stack_extend_back hx hb, (stack_extend_components hb a).1]
  · rw [normalize_eq_iff, (stack_extend_components hb a).1]
  · exact (resolvedIn_of_isAbsolute hw d).1
  · have hpath : (v.join d.path).normalize = (w.join d.path).normalize := by
      rw [← normalize_normalize_join, hv, normalize_normalize_join]
    simp only [Diagnostic.resolvedIn, hpath]
  · exact (resolvedIn_of_isAbsolute hw d).2
  · show (w.join d.path).normalize = (w.join e.path).normalize
    rw [← normalize_join_normalize, normalize_eq_iff_samePlace.2 hplace, normalize_join_normalize]

/-- A directory with detours, and two spellings of a file beside it. -/
theorem places_of_paths_two_spellings :
    let w : Path := ⟨"/w/./src/.."⟩
    let d : Diagnostic := ⟨⟨"lib/../../a.rs"⟩, .point 3 5, .error, "unused", none⟩
    let e : Diagnostic := ⟨⟨"./../a.rs"⟩, .point 3 5, .warning, "unused", none⟩
    (w.isAbsolute = true ∧ w.normalize.components = [.root, .name "w"] ∧
      .parent ∉ w.normalize.components) ∧
    (d.path.isAbsolute = false ∧ ∃ ups names, .parent ∉ names ∧
      d.path.normalize.components = List.replicate ups .parent ++ names) ∧
    ((Component.name "lib").IsName ∧
      (w.extend (.name "lib" :: .parent :: e.path.components)).normalize
        = (w.extend e.path.components).normalize) ∧
    (normalize ⟨"/w"⟩ = w.normalize ∧ d.resolvedIn ⟨"/w"⟩ = d.resolvedIn w) ∧
    d.path.SamePlace e.path ∧ (d.resolvedIn w).path = (e.resolvedIn w).path := by
  intro w d e
  have hw : w.isAbsolute = true := by decide
  have hd : d.path.isAbsolute = false := by decide
  have he : e.path.isAbsolute = false := by decide
  have hname : (Component.name "lib").IsName := ⟨⟨by decide, rfl⟩, nofun⟩
  have hnormal : normalize ⟨"/w"⟩ = w.normalize := by decide
  have hleft : d.path.components = [.name "lib", .parent, .parent, .name "a.rs"] := by decide
  have hright : e.path.components = [.current, .parent, .name "a.rs"] := by decide
  have hplace : d.path.SamePlace e.path := by
    rw [SamePlace, hleft, hright]
    exact .trans _ _ _ (.rel _ _ (.back [] "lib" [.parent, .name "a.rs"]))
      (.symm _ _ (.rel _ _ (.current [] [.parent, .name "a.rs"])))
  obtain ⟨hshape, -, hdetour, -, hresolved⟩ := places_of_paths
  obtain ⟨-, hdirectory, -, -, hkey⟩ := hresolved w hw d e
  exact ⟨⟨hw, by decide, (hshape w).2.2.2.1 hw⟩, ⟨hd, (hshape d.path).2.2.2.2 hd⟩,
    ⟨hname, (hdetour w e.path "lib" hname he).1⟩, ⟨hnormal, hdirectory ⟨"/w"⟩ hnormal⟩,
    hplace, hkey hplace⟩

end Toolbench.Path
