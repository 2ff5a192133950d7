import Mathlib.Data.List.Infix
import Toolbench.Settings.Expansion

/-!
# References in one pass

A value is plain text with references in it, and which ones these are does not depend on any
environment: `Template` is the value with its references told apart, and every value has exactly
one (`exists_wellFormed`, `WellFormed.inj`). `expandFrom_text` says that the references are replaced
in this template, so what is put in is never looked at again. The lemma that carries the others is
`expandFrom_plain_append`: text that opens no reference stays as it is, and what comes after it is
read as if it stood alone.
-/

namespace Toolbench.Settings

variable {env : String → Option String} {front back name rest cs : List Char}

/-- The characters that open a reference. -/
def opening : List Char :=
  ['$', '\x7b']

/-- The text opens no reference. -/
def Plain (cs : List Char) : Prop :=
  ¬ opening <:+: cs

instance (cs : List Char) : Decidable (Plain cs) :=
  inferInstanceAs (Decidable (¬ _))

/-- No reference that the text opens is closed in it. -/
def Unclosed (cs : List Char) : Prop :=
  ∀ front back, cs = front ++ opening ++ back → '\x7d' ∉ back

/-- Every reference that the text opens is closed in it. -/
def Closed (cs : List Char) : Prop :=
  ∀ front back, cs = front ++ opening ++ back → '\x7d' ∈ back

/-- What stands behind the openings of a text, found among its ends. -/
theorem forall_behind_iff {p : List Char → Prop} :
    (∀ front back, cs = front ++ opening ++ back → p back) ↔
      ∀ later ∈ cs.tails, opening <+: later → p (later.drop opening.length) := by
  constructor
  · rintro h _ hlater ⟨back, rfl⟩
    obtain ⟨front, hfront⟩ := (List.mem_tails _ _).1 hlater
    rw [List.drop_left]
    exact h front back (by rw [List.append_assoc, hfront])
  · rintro h front back rfl
    have hlater : opening ++ back ∈ (front ++ opening ++ back).tails := by
      rw [List.mem_tails, List.append_assoc]
      exact List.suffix_append front _
    simpa using h _ hlater (List.prefix_append opening back)

instance (cs : List Char) : Decidable (Unclosed cs) :=
  decidable_of_iff' _ forall_behind_iff

instance (cs : List Char) : Decidable (Closed cs) :=
  decidable_of_iff' _ forall_behind_iff

/-- A text that opens no reference leaves none unclosed. -/
theorem Plain.unclosed (h : Plain cs) : Unclosed cs := by
  rintro front back rfl
  exact absurd (List.infix_append front opening back) h

theorem Plain.of_infix {part : List Char} (h : Plain cs) (hpart : part <:+: cs) : Plain part :=
  fun hopening => h (hopening.trans hpart)

/-! ## The first opening -/

/-- A text that opens a reference has a first opening. -/
theorem exists_plain_append (h : ¬ Plain cs) :
    ∃ front back, cs = front ++ opening ++ back ∧ Plain front := by
  induction cs with
  | nil => exact absurd (by decide) h
  | cons c cs ih =>
      by_cases hhere : opening <+: c :: cs
      · obtain ⟨back, hback⟩ := hhere
        exact ⟨[], back, hback.symm, by decide⟩
      · have hlater : ¬ Plain cs := by
          intro hplain
          exact h fun hopening => (List.infix_cons_iff.1 hopening).elim hhere hplain
        obtain ⟨front, back, rfl, hfront⟩ := ih hlater
        refine ⟨c :: front, back, rfl, fun hopening => ?_⟩
        rcases List.infix_cons_iff.1 hopening with hfirst | hinside
        · exact hhere (hfirst.trans ⟨opening ++ back, by simp⟩)
        · exact hfront hinside

/-- No opening begins before the first one. -/
theorem Plain.first {other later : List Char} (hfront : Plain front)
    (h : front ++ opening ++ back = other ++ opening ++ later) :
    ∃ between, other = front ++ between ∧ opening ++ back = between ++ opening ++ later := by
  rw [List.append_assoc, List.append_assoc, List.append_eq_append_iff] at h
  rcases h with ⟨between, hother, hback⟩ | ⟨between, hbetween, hlater⟩
  · exact ⟨between, hother, by rw [hback, List.append_assoc]⟩
  · match between with
    | [] => exact ⟨[], by simpa using hbetween.symm, by simpa using hlater.symm⟩
    | [c] =>
        -- The brace of one opening would be the dollar sign of the other.
        obtain ⟨-, hbrace⟩ := List.cons.inj hlater
        exact absurd (List.cons.inj hbrace).1 (by decide)
    | c :: d :: between =>
        obtain ⟨rfl, hbrace⟩ := List.cons.inj hlater
        obtain ⟨rfl, -⟩ := List.cons.inj hbrace
        exact absurd ⟨other, between, by rw [hbetween, List.append_assoc]; rfl⟩ hfront

/-- There is one first opening. -/
theorem Plain.first_inj {other later : List Char} (hfront : Plain front) (hother : Plain other)
    (h : front ++ opening ++ back = other ++ opening ++ later) : front = other ∧ back = later := by
  obtain ⟨between, hlonger, hback⟩ := hfront.first h
  obtain ⟨between', hlonger', -⟩ := hother.first h.symm
  have hlength := congrArg List.length hlonger
  have hlength' := congrArg List.length hlonger'
  rw [List.length_append] at hlength hlength'
  obtain rfl : between = [] := List.eq_nil_of_length_eq_zero (by omega)
  exact ⟨by simpa using hlonger.symm, by simpa [opening] using hback⟩

/-- When no brace closes the first reference of a text, none closes any. -/
theorem Plain.unclosed_append (hfront : Plain front) (hback : '\x7d' ∉ back) :
    Unclosed (front ++ opening ++ back) := by
  intro other later h hclosed
  obtain ⟨between, -, heq⟩ := hfront.first h
  have hmem : '\x7d' ∈ opening ++ back := by
    rw [heq]
    exact List.mem_append_right _ hclosed
  rcases List.mem_append.1 hmem with hopening | hlater
  · exact absurd hopening (by decide)
  · exact hback hlater

/-- A name ends at the first brace that closes. -/
theorem name_inj {name' rest' : List Char} (hname : '\x7d' ∉ name) (hname' : '\x7d' ∉ name')
    (h : name ++ '\x7d' :: rest = name' ++ '\x7d' :: rest') : name = name' ∧ rest = rest' := by
  have hpieces := congrArg (List.splitOn '\x7d') h
  rw [List.splitOn_append_cons_self_of_not_mem hname,
    List.splitOn_append_cons_self_of_not_mem hname'] at hpieces
  obtain ⟨rfl, -⟩ := List.cons.inj hpieces
  exact ⟨rfl, (List.cons.inj (List.append_cancel_left h)).2⟩

/-! ## One pass -/

/-- A character that opens no reference stays. -/
theorem expandFrom_cons {c : Char} (h : c = '$' → cs.head? ≠ some '\x7b') :
    expandFrom env none (c :: cs) = c :: expandFrom env none cs := by
  cases cs with
  | nil => simp [expandFrom]
  | cons d cs =>
      rw [expandFrom]
      rintro others rfl hd
      obtain ⟨rfl, -⟩ := List.cons.inj hd
      exact h rfl rfl

/-- Text that opens no reference stays, and what comes after it is read on its own. -/
theorem expandFrom_plain_append (hfront : Plain front)
    (hborder : ¬ (front.getLast? = some '$' ∧ rest.head? = some '\x7b')) :
    expandFrom env none (front ++ rest) = front ++ expandFrom env none rest := by
  induction front with
  | nil => rfl
  | cons c cs ih =>
      have hcs : Plain cs := hfront.of_infix (List.infix_cons (List.infix_refl cs))
      rw [List.cons_append, expandFrom_cons, ih hcs, List.cons_append]
      · rintro ⟨hlast, hhead⟩
        exact hborder ⟨by rw [List.getLast?_cons, hlast]; rfl, hhead⟩
      · rintro rfl hhead
        cases cs with
        | nil => exact hborder ⟨rfl, hhead⟩
        | cons d cs =>
            obtain rfl : d = '\x7b' := Option.some.inj hhead
            exact hfront ⟨[], cs, rfl⟩

/-- A character other than the closing brace belongs to the name of a reference. -/
theorem expandFrom_some_cons {c : Char} (acc : List Char) (hc : c ≠ '\x7d') :
    expandFrom env (some acc) (c :: cs) = expandFrom env (some (c :: acc)) cs := by
  rw [expandFrom]
  exact hc

/-- A reference ends at the first brace that closes. -/
theorem expandFrom_some_append (acc : List Char) (hname : '\x7d' ∉ name) :
    expandFrom env (some acc) (name ++ '\x7d' :: rest)
      = referenced env (acc.reverse ++ name) ++ expandFrom env none rest := by
  induction name generalizing acc with
  | nil => simp [expandFrom]
  | cons c name ih =>
      obtain ⟨hc, hlater⟩ := not_or.1 (mt List.mem_cons.2 hname)
      rw [List.cons_append, expandFrom_some_cons acc (Ne.symm hc), ih (c :: acc) hlater]
      simp

/-- A reference that is not closed stays. -/
theorem expandFrom_some_of_not_mem (acc : List Char) (hcs : '\x7d' ∉ cs) :
    expandFrom env (some acc) cs = opening ++ acc.reverse ++ cs := by
  induction cs generalizing acc with
  | nil => simp [expandFrom, opening]
  | cons c cs ih =>
      obtain ⟨hc, hlater⟩ := not_or.1 (mt List.mem_cons.2 hcs)
      rw [expandFrom_some_cons acc (Ne.symm hc), ih (c :: acc) hlater]
      simp

/-- Reading goes on behind an opening. -/
theorem expandFrom_opening : expandFrom env none (opening ++ cs) = expandFrom env (some []) cs :=
  rfl

/-- Text before an opening stays. -/
theorem expandFrom_plain_append_opening (hfront : Plain front) :
    expandFrom env none (front ++ opening ++ back) = front ++ expandFrom env (some []) back := by
  rw [List.append_assoc, expandFrom_plain_append hfront, expandFrom_opening]
  rintro ⟨-, hhead⟩
  exact absurd (Option.some.inj hhead) (by decide)

/-- The first reference of a text is replaced, and what comes after it is read on its own. -/
theorem expandFrom_reference (hfront : Plain front) (hname : '\x7d' ∉ name) :
    expandFrom env none (front ++ opening ++ (name ++ '\x7d' :: rest))
      = front ++ (referenced env name ++ expandFrom env none rest) := by
  rw [expandFrom_plain_append_opening hfront, expandFrom_some_append [] hname, List.reverse_nil,
    List.nil_append]

/-- A text in which no reference is closed stays. -/
theorem expandFrom_of_unclosed (h : Unclosed cs) : expandFrom env none cs = cs := by
  by_cases hplain : Plain cs
  · have hwhole : expandFrom env none (cs ++ []) = cs ++ expandFrom env none [] :=
      expandFrom_plain_append hplain (fun h => nomatch h.2)
    rwa [List.append_nil, show expandFrom env none [] = [] from rfl, List.append_nil] at hwhole
  · obtain ⟨front, back, rfl, hfront⟩ := exists_plain_append hplain
    rw [expandFrom_plain_append_opening hfront, expandFrom_some_of_not_mem [] (h front back rfl)]
    simp

/-! ## Templates -/

/-- A value with its references told apart. -/
inductive Template where
  /-- The rest of the value, without references. -/
  | ending (text : List Char)
  /-- Plain text, the name of a reference, and what comes after it. -/
  | reference (front name : List Char) (after : Template)
deriving DecidableEq, Repr

namespace Template

/-- The value. -/
def text : Template → List Char
  | ending text => text
  | reference front name after => front ++ opening ++ (name ++ '\x7d' :: after.text)

/-- The names that the value refers to. -/
def names : Template → List (List Char)
  | ending _ => []
  | reference _ name after => name :: after.names

/-- The value with what its references are replaced by. -/
def fill (env : String → Option String) : Template → List Char
  | ending text => text
  | reference front name after => front ++ (referenced env name ++ after.fill env)

/-- What stands behind the last reference. -/
def tail : Template → List Char
  | ending text => text
  | reference _ _ after => after.tail

/-- The references are those of the text: each is the first one that is closed behind those before
it. -/
def WellFormed : Template → Prop
  | ending text => Unclosed text
  | reference front name after => Plain front ∧ '\x7d' ∉ name ∧ after.WellFormed

instance : (t : Template) → Decidable t.WellFormed
  | ending text => inferInstanceAs (Decidable (Unclosed text))
  | reference front name after =>
      have := instDecidableWellFormed after
      inferInstanceAs (Decidable (Plain front ∧ '\x7d' ∉ name ∧ after.WellFormed))

variable {t other : Template}

/-- Every text has its references. -/
theorem exists_wellFormed (cs : List Char) : ∃ t : Template, t.WellFormed ∧ t.text = cs := by
  induction hlength : cs.length using Nat.strong_induction_on generalizing cs with
  | _ n ih =>
      by_cases hplain : Plain cs
      · exact ⟨ending cs, hplain.unclosed, rfl⟩
      · obtain ⟨front, back, rfl, hfront⟩ := exists_plain_append hplain
        by_cases hback : '\x7d' ∈ back
        · obtain ⟨name, later, rfl, hname⟩ := List.eq_append_cons_of_mem hback
          have hshorter : later.length < n := by
            simp only [List.length_append, List.length_cons] at hlength
            omega
          obtain ⟨after, hafter, rfl⟩ := ih later.length hshorter later rfl
          exact ⟨reference front name after, ⟨hfront, hname, hafter⟩, rfl⟩
        · exact ⟨ending _, hfront.unclosed_append hback, rfl⟩

/-- A text has its references in one way only. -/
theorem WellFormed.inj (h : t.WellFormed) (hother : other.WellFormed)
    (htext : t.text = other.text) : t = other := by
  induction t generalizing other with
  | ending text =>
      cases other with
      | ending text' => exact congrArg ending htext
      | reference front name after => exact absurd (by simp) (h front _ htext)
  | reference front name after ih =>
      cases other with
      | ending text' => exact absurd (by simp) (hother front _ htext.symm)
      | reference front' name' after' =>
          obtain ⟨rfl, hback⟩ := h.1.first_inj hother.1 htext
          obtain ⟨rfl, hafter⟩ := name_inj h.2.1 hother.2.1 hback
          rw [ih h.2.2 hother.2.2 hafter]

/-- Expanding the text of a template fills it. -/
theorem expandFrom_text (env : String → Option String) (h : t.WellFormed) :
    expandFrom env none t.text = t.fill env := by
  induction t with
  | ending text => exact expandFrom_of_unclosed h
  | reference front name after ih =>
      rw [text, expandFrom_reference h.1 h.2.1, ih h.2.2, fill]

/-- What a template is filled with depends on the names in it only. -/
theorem fill_congr {env env' : String → Option String}
    (h : ∀ name ∈ t.names, env (String.ofList name) = env' (String.ofList name)) :
    t.fill env = t.fill env' := by
  induction t with
  | ending text => rfl
  | reference front name after ih =>
      obtain ⟨hname, hafter⟩ := List.forall_mem_cons.1 h
      rw [fill, fill, ih hafter, referenced, referenced, hname]

theorem tail_suffix (t : Template) : t.tail <:+ t.text := by
  induction t with
  | ending text => exact List.suffix_refl text
  | reference front name after ih =>
      refine ih.trans ?_
      exact ⟨front ++ opening ++ (name ++ ['\x7d']), by simp [text]⟩

theorem WellFormed.unclosed_tail (h : t.WellFormed) : Unclosed t.tail := by
  induction t with
  | ending text => exact h
  | reference front name after ih => exact ih h.2.2

/-- Behind the last reference of a text in which every reference is closed there is plain text. -/
theorem WellFormed.plain_tail (h : t.WellFormed) (hclosed : Closed t.text) : Plain t.tail := by
  rintro ⟨front, back, htail⟩
  obtain ⟨before, hbefore⟩ := t.tail_suffix
  refine h.unclosed_tail front back htail.symm (hclosed (before ++ front) back ?_)
  rw [← hbefore, ← htail]
  simp

/-- What stands behind a template is read on its own. -/
theorem expandFrom_text_append (env : String → Option String) (h : t.WellFormed)
    (hplain : Plain t.tail)
    (hborder : ¬ (t.tail.getLast? = some '$' ∧ rest.head? = some '\x7b')) :
    expandFrom env none (t.text ++ rest) = t.fill env ++ expandFrom env none rest := by
  induction t with
  | ending text => exact expandFrom_plain_append hplain hborder
  | reference front name after ih =>
      have htext : (reference front name after).text ++ rest
          = front ++ opening ++ (name ++ '\x7d' :: (after.text ++ rest)) := by
        simp [text]
      rw [htext, expandFrom_reference h.1 h.2.1, ih h.2.2 hplain hborder]
      simp [fill]

end Template

/-! ## Values -/

section Values

variable (env : String → Option String)

theorem toList_expand (value : String) :
    (expand env value).toList = expandFrom env none value.toList := by
  rw [expand, String.toList_ofList]

/-- What the first reference of a value is replaced by. -/
theorem expand_reference {front name : String} (rest : String) (hfront : Plain front.toList)
    (hname : '\x7d' ∉ name.toList) :
    expand env (front ++ "$\x7b" ++ name ++ "\x7d" ++ rest)
      = front ++ (if name = "" then "" else (env name).getD "") ++ expand env rest := by
  have hvalue : (front ++ "$\x7b" ++ name ++ "\x7d" ++ rest).toList
      = front.toList ++ opening ++ (name.toList ++ '\x7d' :: rest.toList) := by
    simp [opening]
  have hreferenced : referenced env name.toList
      = (if name = "" then "" else (env name).getD "").toList := by
    rw [referenced, String.ofList_toList]
    by_cases hempty : name = "" <;> simp [hempty]
  rw [← String.toList_inj, toList_expand, hvalue, expandFrom_reference hfront hname, hreferenced,
    String.toList_append, String.toList_append, toList_expand, List.append_assoc]

/-- A value in which no reference is closed stays. -/
theorem expand_of_unclosed {value : String} (h : Unclosed value.toList) :
    expand env value = value := by
  rw [← String.toList_inj, toList_expand, expandFrom_of_unclosed h]

/-- A value is expanded by filling its template. -/
theorem expand_eq_fill {value : String} {t : Template} (h : t.WellFormed)
    (htext : t.text = value.toList) : expand env value = String.ofList (t.fill env) := by
  rw [expand, ← htext, t.expandFrom_text env h]

/-- Two values are expanded one after the other where no reference opens in the first one, or
between them, that the second one could close. -/
theorem expand_append {first second : String} (hclosed : Closed first.toList)
    (hborder : ¬ (first.toList.getLast? = some '$' ∧ second.toList.head? = some '\x7b')) :
    expand env (first ++ second) = expand env first ++ expand env second := by
  obtain ⟨t, ht, htext⟩ := Template.exists_wellFormed first.toList
  have htail : ¬ (t.tail.getLast? = some '$' ∧ second.toList.head? = some '\x7b') := by
    rintro ⟨hlast, hhead⟩
    obtain ⟨before, hbefore⟩ := t.tail_suffix
    refine hborder ⟨?_, hhead⟩
    rw [← htext, ← hbefore, List.getLast?_append, hlast, Option.some_or]
  rw [← String.toList_inj, toList_expand, String.toList_append, ← htext,
    t.expandFrom_text_append env ht (ht.plain_tail (htext ▸ hclosed)) htail, String.toList_append,
    toList_expand, toList_expand, ← htext, t.expandFrom_text env ht]

end Values

/-- A value is expanded in one pass from left to right. A reference is replaced by the value of the
variable that it names, or by nothing when there is none or the name is empty; a value in which no
reference opens or the first one is not closed stays. What the references are depends on the value
alone, and so they are all replaced at once. Two values may be expanded one after the other where
the first one leaves no reference open and no reference opens between them. -/
theorem expand_in_one_pass :
    (∀ env front name rest, Plain front.toList → '\x7d' ∉ name.toList →
      expand env (front ++ "$\x7b" ++ name ++ "\x7d" ++ rest)
        = front ++ (if name = "" then "" else (env name).getD "") ++ expand env rest) ∧
    (∀ env value, Plain value.toList → expand env value = value) ∧
    (∀ env front back, Plain front.toList → '\x7d' ∉ back.toList →
      expand env (front ++ "$\x7b" ++ back) = front ++ "$\x7b" ++ back) ∧
    (∀ value : String, ∃! t : Template, t.WellFormed ∧ t.text = value.toList) ∧
    (∀ value (t : Template), t.WellFormed → t.text = value.toList →
      ∀ env, expand env value = String.ofList (t.fill env) ∧
      ∀ env', (∀ name ∈ t.names, env (String.ofList name) = env' (String.ofList name)) →
        expand env value = expand env' value) ∧
    ∀ env first second, Closed first.toList →
      ¬ (first.toList.getLast? = some '$' ∧ second.toList.head? = some '\x7b') →
      expand env (first ++ second) = expand env first ++ expand env second := by
  refine ⟨?_, ?_, ?_, ?_, ?_, ?_⟩
  · intro env front name rest hfront hname
    exact expand_reference env rest hfront hname
  · intro env value hvalue
    exact expand_of_unclosed env hvalue.unclosed
  · intro env front back hfront hback
    refine expand_of_unclosed env ?_
    have hunclosed := hfront.unclosed_append hback
    simpa [opening] using hunclosed
  · intro value
    obtain ⟨t, ht, htext⟩ := Template.exists_wellFormed value.toList
    exact ⟨t, ⟨ht, htext⟩, fun other hother => hother.1.inj ht (hother.2.trans htext.symm)⟩
  · intro value t ht htext env
    refine ⟨expand_eq_fill env ht htext, fun env' hnames => ?_⟩
    rw [expand_eq_fill env ht htext, expand_eq_fill env' ht htext, Template.fill_congr hnames]
  · intro env first second hclosed hborder
    exact expand_append env hclosed hborder

/-- A value that reads like a reference is not looked at again, and a brace with nothing to close
stays, as does a reference that is not closed. -/
theorem expand_in_one_pass_home :
    (∀ rest, expand (fun _ => some "$\x7bUSER\x7d") ("~" ++ "$\x7b" ++ "HOME" ++ "\x7d" ++ rest)
      = "~" ++ "$\x7bUSER\x7d" ++ expand (fun _ => some "$\x7bUSER\x7d") rest) ∧
    (∀ env, expand env "a$b\x7d" = "a$b\x7d") ∧
    (∀ env, expand env ("a" ++ "$\x7b" ++ "b") = "a" ++ "$\x7b" ++ "b") ∧
    (∀ env env' : String → Option String, env "A" = env' "A" →
      expand env "$\x7bA\x7d/b" = expand env' "$\x7bA\x7d/b") ∧
    ∀ env, expand env ("$\x7bA\x7d/" ++ "b$") = expand env "$\x7bA\x7d/" ++ expand env "b$" := by
  obtain ⟨reference, plain, unclosed, -, template, append⟩ := expand_in_one_pass
  refine ⟨fun rest => ?_, fun env => ?_, fun env => ?_, fun env env' h => ?_, fun env => ?_⟩
  · exact reference (fun _ => some "$\x7bUSER\x7d") "~" "HOME" rest (by decide) (by decide)
  · exact plain env "a$b\x7d" (by decide)
  · exact unclosed env "a" "b" (by decide) (by decide)
  · have hnames : ∀ name ∈ (Template.reference [] ['A'] (.ending ['/', 'b'])).names,
        env (String.ofList name) = env' (String.ofList name) := by
      simpa [Template.names] using h
    exact (template "$\x7bA\x7d/b" _ (by decide) rfl env).2 env' hnames
  · exact append env "$\x7bA\x7d/" "b$" (by decide) (by decide)

end Toolbench.Settings
