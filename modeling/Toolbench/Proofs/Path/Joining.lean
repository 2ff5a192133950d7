import Mathlib.Data.List.Basic
import Toolbench.Proofs.Path.Normal

/-!
# Paths seen from a directory

A path starts at the root or anywhere and takes steps: names and `..`. What it has resolved to
after its last step is its stack, and two paths are normalized to the same one exactly when their
stacks agree (`normalize_eq_iff`). Joining takes the steps of both paths one after the other
(`stack_join`), so the main fact is `foldl_reverse_foldl`: a resolved path leads from everywhere to
where its steps lead. A directory and what is seen from it may therefore be normalized before they
are joined.
-/

namespace Toolbench.Path

variable {base p q : Path} {rest here : List Component} {component : Component}

/-! ## The steps of a path -/

/-- The steps that a path takes from where it starts: names and `..`. -/
def steps (p : Path) : List Component :=
  p.pieces.filterMap Component.ofPiece?

/-- Where a path starts. -/
def origin (p : Path) : List Component :=
  if p.isAbsolute then [.root] else []

/-- What a path has resolved to after its last step, innermost component first. -/
def stack (p : Path) : List Component :=
  p.steps.foldl resolveOnto p.origin

/-- Steps can stand between slashes. -/
theorem isProper_of_mem_steps (h : component ∈ p.steps) : component.IsProper := by
  obtain ⟨piece, hpiece, hsome⟩ := List.mem_filterMap.1 h
  exact Component.isProper_of_ofPiece? (not_mem_of_mem_pieces hpiece) hsome

/-- A path resolves to its stack. -/
theorem resolve_components (p : Path) : resolve p.components = p.stack.reverse := by
  unfold resolve stack origin components steps
  by_cases habsolute : p.isAbsolute = true
  · rw [if_pos habsolute, if_pos habsolute]
    rfl
  · rw [if_neg habsolute, if_neg habsolute]
    split
    · rename_i rest hpieces
      rw [hpieces]
      rfl
    · rfl

theorem normalize_eq_ofComponents (p : Path) : p.normalize = ofComponents p.stack.reverse := by
  rw [normalize, resolve_components]

/-! ## Resolving from another place -/

/-- One more proper step leaves proper steps. -/
theorem isProper_resolveOnto (hhere : ∀ c ∈ here, c.IsProper) (hcomponent : component.IsProper) :
    ∀ c ∈ resolveOnto here component, c.IsProper := by
  unfold resolveOnto
  split
  · exact hhere
  · exact fun c hc => hhere c (List.mem_cons_of_mem _ hc)
  · exact hhere
  · exact List.forall_mem_cons.2 ⟨hcomponent, hhere⟩

/-- More proper steps leave proper steps. -/
theorem isProper_foldl_resolveOnto (hhere : ∀ c ∈ here, c.IsProper)
    (hrest : ∀ c ∈ rest, c.IsProper) : ∀ c ∈ rest.foldl resolveOnto here, c.IsProper := by
  induction rest generalizing here with
  | nil => exact hhere
  | cons component rest ih =>
      obtain ⟨hcomponent, hrest⟩ := List.forall_mem_cons.1 hrest
      exact ih (isProper_resolveOnto hhere hcomponent) hrest

/-- One more step leads from another place to where it leads there. -/
theorem foldl_reverse_resolveOnto (there : List Component)
    (hhere : ∀ c ∈ here, c.IsProper) (hcomponent : component.IsProper) :
    (resolveOnto here component).reverse.foldl resolveOnto there
      = resolveOnto (here.reverse.foldl resolveOnto there) component := by
  -- A step that is put on top here is the last one that is taken there.
  have hpush : (component :: here).reverse.foldl resolveOnto there
      = resolveOnto (here.reverse.foldl resolveOnto there) component := by
    rw [List.reverse_cons, List.foldl_append]
    rfl
  rcases hcomponent.eq_parent_or_name with rfl | ⟨text, rfl⟩
  · cases here with
    | nil => exact hpush
    | cons top below =>
        rcases (hhere top List.mem_cons_self).eq_parent_or_name with rfl | ⟨text, rfl⟩
        · exact hpush
        · -- There the name is put on top and taken away again.
          rw [List.reverse_cons, List.foldl_append]
          show below.reverse.foldl resolveOnto there
            = resolveOnto (resolveOnto (below.reverse.foldl resolveOnto there) (.name text)) .parent
          rw [resolveOnto_name]
          rfl
  · rw [← hpush, resolveOnto_name]

/-- Steps that were resolved here lead from another place to where the steps lead. -/
theorem foldl_reverse_foldl (there : List Component) (hhere : ∀ c ∈ here, c.IsProper)
    (hrest : ∀ c ∈ rest, c.IsProper) :
    (rest.foldl resolveOnto here).reverse.foldl resolveOnto there
      = rest.foldl resolveOnto (here.reverse.foldl resolveOnto there) := by
  induction rest generalizing here with
  | nil => rfl
  | cons component rest ih =>
      obtain ⟨hcomponent, hrest⟩ := List.forall_mem_cons.1 hrest
      rw [List.foldl_cons, List.foldl_cons, ih (isProper_resolveOnto hhere hcomponent) hrest,
        foldl_reverse_resolveOnto there hhere hcomponent]

/-! ## Joining -/

/-- The steps before and after a slash. -/
theorem steps_append_slash (before after : String) :
    steps ⟨before ++ "/" ++ after⟩ = steps ⟨before⟩ ++ steps ⟨after⟩ := by
  have hsplit : (before.toList ++ '/' :: after.toList).splitOn '/'
      = before.toList.splitOn '/' ++ after.toList.splitOn '/' :=
    List.splitOn_append_cons_self _ _
  have hpieces : pieces ⟨before ++ "/" ++ after⟩ = pieces ⟨before⟩ ++ pieces ⟨after⟩ := by
    simp only [pieces, String.toList_append, List.append_assoc]
    rw [← List.map_append, ← hsplit]
    rfl
  rw [steps, hpieces, List.filterMap_append]
  rfl

/-- A slash at the end takes no step. -/
theorem steps_slash (before : String) : steps ⟨before ++ "/"⟩ = steps ⟨before⟩ := by
  have happend := steps_append_slash before ""
  rwa [String.append_empty, show steps ⟨""⟩ = [] by decide, List.append_nil] at happend

/-- An absolute path stands for itself. -/
theorem join_of_isAbsolute (base : Path) (h : p.isAbsolute = true) : base.join p = p := by
  rw [join, if_pos h]

/-- The text of a relative path is put after the directory, with a slash between the two unless
the directory is empty or ends in one. -/
theorem join_cases (base : Path) (h : p.isAbsolute = false) :
    base.text = "" ∧ base.join p = p ∨
      base.text ≠ "" ∧ ∃ before, (base.text = before ∨ base.text = before ++ "/") ∧
        base.join p = ⟨before ++ "/" ++ p.text⟩ := by
  unfold join
  rw [h, if_neg Bool.false_ne_true]
  split
  · rename_i hempty
    have htext : base.text = "" := by simpa using hempty
    exact .inl ⟨htext, by rw [htext, String.empty_append]⟩
  · rename_i hslash
    obtain ⟨before, hbefore⟩ := List.getLast?_eq_some_iff.1 hslash
    have htext : base.text = String.ofList before ++ "/" := by
      rw [← String.toList_inj, hbefore, String.toList_append, String.toList_ofList]
      rfl
    refine .inr ⟨fun hempty => ?_, String.ofList before, .inr htext, by rw [htext]⟩
    rw [hempty] at hslash
    exact nomatch hslash
  · rename_i hlast
    refine .inr ⟨fun hempty => ?_, base.text, .inl rfl, rfl⟩
    rw [hempty] at hlast
    exact nomatch hlast

/-- From a directory its steps are taken first. -/
theorem steps_join (base : Path) (h : p.isAbsolute = false) :
    (base.join p).steps = base.steps ++ p.steps := by
  rcases join_cases base h with ⟨hempty, hjoin⟩ | ⟨-, before, hbase, hjoin⟩
  · have hsteps : base.steps = [] := by
      rw [steps, pieces, hempty]
      decide
    rw [hjoin, hsteps, List.nil_append]
  · have hsteps : base.steps = steps ⟨before⟩ := by
      rcases hbase with hbase | hbase
      · exact congrArg (fun text => steps ⟨text⟩) hbase
      · exact (congrArg (fun text => steps ⟨text⟩) hbase).trans (steps_slash before)
    rw [hjoin, hsteps, steps_append_slash]

/-- What follows a text does not tell whether the path begins at the root. -/
theorem isAbsolute_append {text : String} (h : text ≠ "") (after : String) :
    isAbsolute ⟨text ++ after⟩ = isAbsolute ⟨text⟩ := by
  have hne : text.toList ≠ [] := by simpa using h
  simp only [isAbsolute, String.toList_append, List.head?_append_of_ne_nil _ hne]

/-- A joined path is absolute when one of the two is. -/
theorem isAbsolute_join_eq (base p : Path) :
    (base.join p).isAbsolute = (base.isAbsolute || p.isAbsolute) := by
  cases hp : p.isAbsolute with
  | true => rw [join_of_isAbsolute base hp, hp, Bool.or_true]
  | false =>
      rw [Bool.or_false]
      rcases join_cases base hp with ⟨hempty, hjoin⟩ | ⟨hne, before, hbase, hjoin⟩
      · rw [hjoin, hp, isAbsolute, hempty]
        rfl
      · rcases hbase with hbase | hbase
        · rw [hjoin, ← hbase, String.append_assoc]
          exact isAbsolute_append hne _
        · rw [hjoin, ← hbase]
          exact isAbsolute_append hne _

/-- Joining takes the steps of both paths, unless the second one stands for itself. -/
theorem stack_join (base : Path) (h : p.isAbsolute = false) :
    (base.join p).stack = p.steps.foldl resolveOnto base.stack := by
  have horigin : (base.join p).origin = base.origin := by
    rw [origin, isAbsolute_join_eq, h, Bool.or_false]
    rfl
  rw [stack, horigin, steps_join base h, List.foldl_append]
  rfl

/-- Joining may be done in either order, as long as the paths keep theirs. -/
theorem stack_join_assoc (base p q : Path) :
    (base.join (p.join q)).stack = ((base.join p).join q).stack := by
  cases hq : q.isAbsolute with
  | true =>
      have hpq : p.join q = q := join_of_isAbsolute p hq
      rw [hpq, join_of_isAbsolute base hq, join_of_isAbsolute _ hq]
  | false =>
      cases hp : p.isAbsolute with
      | true =>
          have hpq : (p.join q).isAbsolute = true := isAbsolute_join hp q
          rw [join_of_isAbsolute base hpq, join_of_isAbsolute base hp]
      | false =>
          have hpq : (p.join q).isAbsolute = false := by rw [isAbsolute_join_eq, hp, hq]; rfl
          rw [stack_join base hpq, steps_join p hq, List.foldl_append, stack_join _ hq,
            stack_join base hp]

/-! ## Normalizing before joining -/

/-- An absolute path resolves to names below the root. -/
theorem stack_of_isAbsolute (h : p.isAbsolute = true) :
    ∃ names, p.stack = names ++ [.root] ∧ ∀ c ∈ names, c.IsName := by
  rw [stack, origin, if_pos h]
  exact foldl_resolveOnto_root (List.forall_mem_nil _)
    (fun _ => isProper_of_mem_steps)

/-- A relative path resolves to proper steps. -/
theorem isProper_of_mem_stack (h : p.isAbsolute = false) (hmem : component ∈ p.stack) :
    component.IsProper := by
  rw [stack, origin, if_neg (by simp [h])] at hmem
  exact isProper_foldl_resolveOnto (List.forall_mem_nil _) (fun _ => isProper_of_mem_steps) _ hmem

/-- An absolute path has an empty piece before its first slash. -/
theorem pieces_of_isAbsolute (h : p.isAbsolute = true) : ∃ after, p.pieces = "" :: after := by
  have hhead : p.text.toList.head? = some '/' := by simpa [isAbsolute] using h
  obtain ⟨cs, hcs⟩ := List.head?_eq_some_iff.1 hhead
  have htext : p.text = "/" ++ String.ofList cs := by
    rw [← String.toList_inj, hcs]
    simp
  exact ⟨_, (congrArg (fun text => pieces ⟨text⟩) htext).trans (pieces_root _)⟩

/-- The components of a path that does not begin at the root or with a `.` are its steps. -/
theorem components_of_relative (h : p.isAbsolute = false) (hcurrent : p.pieces.head? ≠ some ".") :
    p.components = p.steps := by
  rw [components, if_neg (by simp [h])]
  split
  · rename_i hpieces
    exact absurd (by rw [hpieces]; rfl) hcurrent
  · rfl

/-- Proper steps are read back from their spelling, which does not begin at the root. -/
theorem steps_ofComponents (h : ∀ c ∈ rest, c.IsProper) :
    (ofComponents rest).isAbsolute = false ∧ (ofComponents rest).steps = rest ∧
      (ofComponents rest).components = rest := by
  cases rest with
  | nil => exact ⟨by decide, by decide, by decide⟩
  | cons first others =>
      have hfirst := h first List.mem_cons_self
      have hspelled : (ofComponents (first :: others)).pieces
          = (first :: others).map Component.text := by
        have hplain : ∀ text ∈ (first :: others).map Component.text, '/' ∉ text.toList := by
          intro text htext
          obtain ⟨component, hmem, rfl⟩ := List.mem_map.1 htext
          exact (h component hmem).1
        cases first with
        | root => exact absurd hfirst Component.not_isProper_root
        | current | parent | name => exact pieces_intercalate (List.cons_ne_nil _ _) hplain
      have hsteps : (ofComponents (first :: others)).steps = first :: others := by
        rw [steps, hspelled, List.filterMap_map]
        exact (List.filterMap_congr fun component hmem => (h component hmem).2).trans
          List.filterMap_some
      -- Neither the empty piece before a first slash nor a `.` is a step.
      have hrelative : (ofComponents (first :: others)).isAbsolute = false := by
        rw [← Bool.not_eq_true]
        intro habsolute
        obtain ⟨after, hafter⟩ := pieces_of_isAbsolute habsolute
        rw [hspelled, List.map_cons, List.cons.injEq] at hafter
        have hnone := hfirst.2
        rw [hafter.1] at hnone
        exact nomatch hnone
      have hcurrent : (ofComponents (first :: others)).pieces.head? ≠ some "." := by
        rw [hspelled, List.map_cons, List.head?_cons]
        intro heq
        have hnone := hfirst.2
        rw [Option.some.inj heq] at hnone
        exact nomatch hnone
      exact ⟨hrelative, hsteps, (components_of_relative hrelative hcurrent).trans hsteps⟩

/-- A relative path keeps the steps that it has resolved to. -/
theorem steps_normalize (h : p.isAbsolute = false) :
    p.normalize.isAbsolute = false ∧ p.normalize.steps = p.stack.reverse ∧
      p.normalize.components = p.stack.reverse := by
  rw [normalize_eq_ofComponents]
  exact steps_ofComponents fun c hc => isProper_of_mem_stack h (List.mem_reverse.1 hc)

/-- A relative path leads from everywhere to where it led before. -/
theorem foldl_steps_normalize (h : p.isAbsolute = false) (there : List Component) :
    p.normalize.steps.foldl resolveOnto there = p.steps.foldl resolveOnto there := by
  rw [(steps_normalize h).2.1, stack, origin, if_neg (by simp [h])]
  exact foldl_reverse_foldl there (List.forall_mem_nil _)
    (fun _ => isProper_of_mem_steps)

/-- A normalized path begins where the path does. -/
@[simp] theorem isAbsolute_normalize (p : Path) : p.normalize.isAbsolute = p.isAbsolute := by
  cases h : p.isAbsolute with
  | true => exact (isNormal_normalize h).components_eq.1
  | false => exact (steps_normalize h).1

/-- A normalized path has the components that the path has resolved to. -/
theorem components_normalize (p : Path) : p.normalize.components = p.stack.reverse := by
  cases h : p.isAbsolute with
  | false => exact (steps_normalize h).2.2
  | true =>
      obtain ⟨names, hstack, hnames⟩ := stack_of_isAbsolute h
      have hreverse : p.stack.reverse = .root :: names.reverse := by
        rw [hstack, List.reverse_append]
        rfl
      rw [normalize_eq_ofComponents, hreverse]
      exact (components_ofComponents fun c hc => (hnames c (List.mem_reverse.1 hc)).1).2

/-- What a path has resolved to resolves to itself. -/
theorem resolve_stack_reverse (p : Path) : resolve p.stack.reverse = p.stack.reverse := by
  cases h : p.isAbsolute with
  | false =>
      rw [stack, origin, if_neg (by simp [h]), resolve,
        foldl_reverse_foldl [] (List.forall_mem_nil _) (fun _ => isProper_of_mem_steps)]
      rfl
  | true =>
      obtain ⟨names, hstack, hnames⟩ := stack_of_isAbsolute h
      rw [hstack, List.reverse_append]
      show (names.reverse.foldl resolveOnto [.root]).reverse = _
      rw [foldl_resolveOnto_names _ (fun c hc => hnames c (List.mem_reverse.1 hc)),
        List.reverse_append, List.reverse_reverse]

/-- A normalized path has resolved to what the path has resolved to. -/
@[simp] theorem stack_normalize (p : Path) : p.normalize.stack = p.stack := by
  rw [← List.reverse_inj, ← resolve_components, components_normalize, resolve_stack_reverse]

/-- A normalized path has no `.`. -/
theorem current_not_mem_components_normalize (p : Path) : .current ∉ p.normalize.components := by
  rw [components_normalize, List.mem_reverse]
  intro hmem
  cases h : p.isAbsolute with
  | true =>
      obtain ⟨names, hstack, hnames⟩ := stack_of_isAbsolute h
      rw [hstack] at hmem
      rcases List.mem_append.1 hmem with hname | hroot
      · exact Component.not_isProper_current (hnames _ hname).1
      · exact nomatch List.mem_singleton.1 hroot
  | false =>
      exact Component.not_isProper_current (isProper_of_mem_stack h hmem)

/-- Paths are normalized to the same one exactly when they have resolved to the same. -/
theorem normalize_eq_iff : p.normalize = q.normalize ↔ p.stack = q.stack := by
  constructor
  · intro h
    rw [← stack_normalize p, h, stack_normalize]
  · intro h
    rw [normalize_eq_ofComponents, h, normalize_eq_ofComponents]

/-- What is seen from a directory may be normalized first. -/
theorem normalize_join_normalize (base p : Path) :
    (base.join p.normalize).normalize = (base.join p).normalize := by
  rw [normalize_eq_iff]
  cases h : p.isAbsolute with
  | true =>
      have hnormal : p.normalize.isAbsolute = true := by rw [isAbsolute_normalize, h]
      rw [join_of_isAbsolute base h, join_of_isAbsolute base hnormal, stack_normalize]
  | false =>
      rw [stack_join base (steps_normalize h).1, stack_join base h, foldl_steps_normalize h]

/-- The directory may be normalized first. -/
theorem normalize_normalize_join (base p : Path) :
    (base.normalize.join p).normalize = (base.join p).normalize := by
  rw [normalize_eq_iff]
  cases h : p.isAbsolute with
  | true => rw [join_of_isAbsolute _ h, join_of_isAbsolute _ h]
  | false => rw [stack_join _ h, stack_join _ h, stack_normalize]

/-! ## How far a path leads -/

/-- How many directories a relative path leads up. -/
def ups (p : Path) : Nat :=
  p.stack.count .parent

/-- How many directories a path leads down, after it has led up. -/
def downs (p : Path) : Nat :=
  p.stack.countP fun
    | .name _ => true
    | _ => false

/-- One more proper step on top of names, which are on top of `..`s. -/
theorem resolveOnto_parents {names : List Component} (ups : Nat) (hnames : ∀ c ∈ names, c.IsName)
    (hcomponent : component.IsProper) :
    ∃ left more, resolveOnto (names ++ List.replicate ups .parent) component
        = left ++ List.replicate more .parent ∧ ∀ c ∈ left, c.IsName := by
  rcases hcomponent.eq_parent_or_name with rfl | ⟨text, rfl⟩
  · cases names with
    | nil =>
        refine ⟨[], ups + 1, ?_, hnames⟩
        cases ups <;> rfl
    | cons top below =>
        obtain ⟨htop, hbelow⟩ := List.forall_mem_cons.1 hnames
        obtain ⟨text, rfl⟩ := htop.exists_text
        exact ⟨below, ups, rfl, hbelow⟩
  · exact ⟨.name text :: names, ups, resolveOnto_name _ text,
      List.forall_mem_cons.2 ⟨⟨hcomponent, nofun⟩, hnames⟩⟩

/-- More proper steps on top of names, which are on top of `..`s. -/
theorem foldl_resolveOnto_parents {names : List Component} (ups : Nat)
    (hnames : ∀ c ∈ names, c.IsName) (hrest : ∀ c ∈ rest, c.IsProper) :
    ∃ left more, rest.foldl resolveOnto (names ++ List.replicate ups .parent)
        = left ++ List.replicate more .parent ∧ ∀ c ∈ left, c.IsName := by
  induction rest generalizing names ups with
  | nil => exact ⟨names, ups, rfl, hnames⟩
  | cons component rest ih =>
      obtain ⟨hcomponent, hlater⟩ := List.forall_mem_cons.1 hrest
      obtain ⟨left, more, heq, hleft⟩ := resolveOnto_parents ups hnames hcomponent
      rw [List.foldl_cons, heq]
      exact ih more hleft hlater

/-- Names are counted as steps down, and a `..` or the root is not. -/
theorem downs_eq_length {names ground : List Component} (hstack : p.stack = names ++ ground)
    (hnames : ∀ c ∈ names, c.IsName) (hground : ∀ c ∈ ground, c = .parent ∨ c = .root) :
    p.downs = names.length := by
  rw [downs, hstack, List.countP_append, List.countP_eq_length.2, List.countP_eq_zero.2,
    Nat.add_zero]
  · intro c hc
    rcases hground c hc with rfl | rfl <;> exact Bool.false_ne_true
  · intro c hc
    obtain ⟨text, rfl⟩ := (hnames c hc).exists_text
    rfl

/-- A relative path resolves to as many `..`s as it leads up, with names on top. -/
theorem stack_of_relative (h : p.isAbsolute = false) :
    ∃ names, p.stack = names ++ List.replicate p.ups .parent ∧ p.downs = names.length ∧
      ∀ c ∈ names, c.IsName := by
  obtain ⟨names, more, hstack, hnames⟩ :
      ∃ names more, p.stack = names ++ List.replicate more .parent ∧ ∀ c ∈ names, c.IsName := by
    rw [stack, origin, if_neg (by simp [h])]
    exact foldl_resolveOnto_parents 0 (List.forall_mem_nil _) fun _ => isProper_of_mem_steps
  have hups : p.ups = more := by
    rw [ups, hstack, List.count_append, List.count_replicate_self,
      List.count_eq_zero.2 fun hmem => (hnames _ hmem).2 rfl, Nat.zero_add]
  refine ⟨names, hups ▸ hstack, downs_eq_length hstack hnames ?_, hnames⟩
  exact fun c hc => .inl (List.eq_of_mem_replicate hc)

/-- `..`s take names away and stop at the root. -/
theorem foldl_replicate_parent {names : List Component} (ups : Nat)
    (hnames : ∀ c ∈ names, c.IsName) :
    (List.replicate ups .parent).foldl resolveOnto (names ++ [.root])
      = names.drop ups ++ [.root] := by
  induction ups generalizing names with
  | zero => rfl
  | succ ups ih =>
      rw [List.replicate_succ, List.foldl_cons]
      cases names with
      | nil =>
          show (List.replicate ups .parent).foldl resolveOnto ([] ++ [.root]) = _
          rw [ih hnames, List.drop_nil, List.drop_nil]
      | cons top below =>
          obtain ⟨htop, hbelow⟩ := List.forall_mem_cons.1 hnames
          obtain ⟨text, rfl⟩ := htop.exists_text
          exact ih hbelow

/-- A relative path leads up from an absolute directory, at most to the root, and then down. -/
theorem stack_join_of_relative {dirs names : List Component} (hp : p.isAbsolute = false)
    (hbase : base.stack = dirs ++ [.root]) (hdirs : ∀ c ∈ dirs, c.IsName)
    (hstack : p.stack = names ++ List.replicate p.ups .parent) (hnames : ∀ c ∈ names, c.IsName) :
    (base.join p).stack = (names ++ dirs.drop p.ups) ++ [.root] := by
  rw [stack_join base hp, ← foldl_steps_normalize hp, (steps_normalize hp).2.1, hstack, hbase,
    List.reverse_append, List.reverse_replicate, List.foldl_append,
    foldl_replicate_parent _ hdirs,
    foldl_resolveOnto_names _ (fun c hc => hnames c (List.mem_reverse.1 hc)), List.reverse_reverse,
    List.append_assoc]

/-- A relative path that is followed twice from an absolute directory leads to the same directory
exactly when it leads down as often as up, or when it leads up to the root and down less often. -/
theorem stack_join_join_iff (hbase : base.isAbsolute = true) (hp : p.isAbsolute = false) :
    ((base.join p).join p).stack = (base.join p).stack
      ↔ p.downs = p.ups ∨ p.downs < p.ups ∧ base.downs ≤ p.ups := by
  obtain ⟨dirs, hdirs, hdirNames⟩ := stack_of_isAbsolute hbase
  obtain ⟨names, hstack, hdowns, hnames⟩ := stack_of_relative hp
  have hdepth : base.downs = dirs.length :=
    downs_eq_length hdirs hdirNames fun c hc => .inr (List.mem_singleton.1 hc)
  have honce := stack_join_of_relative hp hdirs hdirNames hstack hnames
  have hleft : ∀ c ∈ names ++ dirs.drop p.ups, c.IsName := by
    intro c hc
    exact (List.mem_append.1 hc).elim (hnames c) fun h => hdirNames c (List.mem_of_mem_drop h)
  rw [stack_join_of_relative hp honce hleft hstack hnames, honce, List.append_left_inj,
    List.append_right_inj, hdowns, hdepth]
  constructor
  · intro heq
    have hlength := congrArg List.length heq
    simp only [List.length_drop, List.length_append] at hlength
    omega
  · rintro (heq | ⟨hless, hroot⟩)
    · rw [← heq, List.drop_left]
    · have hnone : dirs.drop p.ups = [] := List.drop_eq_nil_of_le hroot
      rw [hnone, List.append_nil]
      exact List.drop_eq_nil_of_le (Nat.le_of_lt hless)

end Toolbench.Path
