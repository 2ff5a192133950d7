import Mathlib.Data.List.Forall2
import Mathlib.Data.List.Perm.Basic
import Toolbench.Json.Basic

/-!
# JSON values that say the same

Two values are alike when they differ at most in how they are written: in the order of the fields of
an object, in fields that a later one of the same name replaces, and in numbers that are no 32-bit
words. `Alike.members?` says that the members of alike records are alike under every name, and
`Alike.of_perm` that fields of different names may be put into another order.
-/

namespace Toolbench.Json

/-- The values differ at most in how they are written. -/
inductive Alike : Json → Json → Prop
  | null : Alike .null .null
  | bool (value : Bool) : Alike (.bool value) (.bool value)
  | number {x y : Number} (h : (Json.number x).word32? = (Json.number y).word32?) :
      Alike (.number x) (.number y)
  | string (text : Option String) : Alike (.string text) (.string text)
  | array {xs ys : List Json} (h : List.Forall₂ Alike xs ys) : Alike (.array xs) (.array ys)
  | object {fields others : List (Option String × Json)}
      (h : ∀ name, Option.Rel Alike ((membersReversed fields).lookup name)
        ((membersReversed others).lookup name)) :
      Alike (.object fields) (.object others)

variable {x y : Json} {fields others : List (Option String × Json)}

namespace Alike

theorem text? (h : x.Alike y) : x.text? = y.text? := by
  cases h <;> rfl

theorem bool? (h : x.Alike y) : x.bool? = y.bool? := by
  cases h <;> rfl

theorem word32? (h : x.Alike y) : x.word32? = y.word32? := by
  cases h with
  | number h => exact h
  | null | bool | string | array | object => rfl

theorem items? (h : x.Alike y) : Option.Rel (List.Forall₂ Alike) x.items? y.items? := by
  cases h with
  | array h => exact .some h
  | null | bool | number | string | object => exact .none

/-- Values that are listed under names in the same order are alike under every name. -/
theorem lookup_zip {xs ys : List Json} (h : List.Forall₂ Alike xs ys) (names : List String)
    (name : String) :
    Option.Rel Alike ((names.zip xs).lookup name) ((names.zip ys).lookup name) := by
  induction h generalizing names with
  | nil =>
      rw [List.zip_nil_right]
      exact .none
  | cons hvalue _ ih =>
      cases names with
      | nil => exact .none
      | cons first names =>
          rw [List.zip_cons_cons, List.zip_cons_cons, List.lookup_cons, List.lookup_cons]
          cases name == first with
          | true => exact .some hvalue
          | false => exact ih names

/-- The members of alike records are alike under every name. -/
theorem members? (h : x.Alike y) (names : List String) :
    Option.Rel (fun members others => ∀ name,
      Option.Rel Alike (members.lookup name) (others.lookup name))
      (x.members? names) (y.members? names) := by
  cases h with
  | object h => exact .some h
  | null | bool | number | string => exact .none
  | array h =>
      simp only [Json.members?, h.length_eq]
      split
      · exact .some (lookup_zip h names)
      · exact .none

/-- A value is alike to itself. -/
theorem refl (json : Json) : json.Alike json := by
  match json with
  | .null => exact .null
  | .bool value => exact .bool value
  | .number value => exact .number rfl
  | .string text => exact .string text
  | .array items => exact .array (List.forall₂_same.2 fun item hitem => refl item)
  | .object fields =>
      refine .object fun name => ?_
      cases hfound : (membersReversed fields).lookup name with
      | none => exact .none
      | some value =>
          have hmembers : (Json.object fields).members? [] = some (membersReversed fields) := rfl
          have hsmaller := sizeOf_lt_of_members? hmembers (mem_of_lookup hfound)
          exact .some (refl value)
termination_by sizeOf json
decreasing_by
  · have hlt := List.sizeOf_lt_of_mem hitem
    simp only [array.sizeOf_spec]
    omega
  · exact hsmaller

/-- Where no name stands twice, entries may be put into another order. -/
theorem lookup_eq_of_perm {α : Type} {xs ys : List (String × α)} (hperm : xs.Perm ys)
    (hnodup : (xs.map (·.1)).Nodup) (name : String) : xs.lookup name = ys.lookup name := by
  induction hperm with
  | nil => rfl
  | cons entry _ ih =>
      obtain ⟨key, value⟩ := entry
      rw [List.lookup_cons, List.lookup_cons, ih (List.nodup_cons.1 hnodup).2]
  | swap first second rest =>
      obtain ⟨key, value⟩ := first
      obtain ⟨other, found⟩ := second
      have hne : other ≠ key := by
        rintro rfl
        simp at hnodup
      rw [List.lookup_cons, List.lookup_cons, List.lookup_cons, List.lookup_cons]
      -- At most one of the two entries has the name.
      cases hkey : name == key with
      | false => rfl
      | true =>
          obtain rfl := beq_iff_eq.1 hkey
          rw [beq_eq_false_iff_ne.2 hne.symm]
  | trans hleft _ ihleft ihright =>
      exact (ihleft hnodup).trans (ihright ((hleft.map _).nodup_iff.1 hnodup))

/-- Where no name stands twice, fields may be put into another order. -/
theorem of_perm (hperm : fields.Perm others)
    (hnodup : ((membersReversed fields).map (·.1)).Nodup) :
    (Json.object fields).Alike (Json.object others) := by
  refine .object fun name => ?_
  have hmembers : (membersReversed fields).Perm (membersReversed others) :=
    ((fields.reverse_perm.trans hperm).trans others.reverse_perm.symm).filterMap _
  rw [← lookup_eq_of_perm hmembers hnodup name]
  cases (membersReversed fields).lookup name with
  | none => exact .none
  | some value => exact .some (refl value)

end Alike

end Toolbench.Json
