import Toolbench.Json.Number

/-!
# JSON values

A value is kept as it was written: the fields of an object in order, repeated names included,
numbers with their digits, and strings that no text denotes as such. `readable` says which values
can be used as a whole. A record may be written as an object or as the array of its members; both
are looked up through `members?`, and `sizeOf_lt_of_members?` lets functions recurse into members.
-/

namespace Toolbench

/-- A JSON value. -/
inductive Json where
  | null
  | bool (value : Bool)
  | number (value : Json.Number)
  /-- A string. There is no text when an escape names half of a surrogate pair. -/
  | string (text : Option String)
  | array (items : List Json)
  | object (fields : List (Option String × Json))
deriving Repr

namespace Json

mutual
/-- Arrays and objects are nested at most `depth` deep, all numbers are finite, and all strings
and names denote texts. -/
def readableTo : Nat → Json → Bool
  | _, .null => true
  | _, .bool _ => true
  | _, .number value => value.isFinite
  | _, .string text => text.isSome
  | depth, .array items => 0 < depth && readableItems (depth - 1) items
  | depth, .object fields => 0 < depth && readableFields (depth - 1) fields

/-- All items are readable. -/
def readableItems : Nat → List Json → Bool
  | _, [] => true
  | depth, item :: items => readableTo depth item && readableItems depth items

/-- All names and values are readable. -/
def readableFields : Nat → List (Option String × Json) → Bool
  | _, [] => true
  | depth, (name, value) :: fields =>
      name.isSome && readableTo depth value && readableFields depth fields
end

/-- The value can be used as a whole: its nesting is less than 128 deep. -/
def readable (json : Json) : Bool :=
  json.readableTo 127

/-- The text of a string. -/
def text? : Json → Option String
  | .string text => text
  | _ => none

/-- The value of a truth value. -/
def bool? : Json → Option Bool
  | .bool value => some value
  | _ => none

/-- A natural number that fits 32 bits. -/
def word32? : Json → Option UInt32
  | .number value => value.natural?.bind Text.Word.ofNat?
  | _ => none

/-- The items of an array. -/
def items? : Json → Option (List Json)
  | .array items => some items
  | _ => none

/-- The value is null. -/
def isNull : Json → Bool
  | .null => true
  | _ => false

/-- The members of an object, the last one first. -/
def membersReversed (fields : List (Option String × Json)) : List (String × Json) :=
  fields.reverse.filterMap fun (name, value) => name.map (·, value)

/-- The members of a record with these member names: those of an object, where the last of
several members of one name comes first, or the items of an array, one for each name in order as
far as they go. -/
def members? (names : List String) : Json → Option (List (String × Json))
  | .object fields => some (membersReversed fields)
  | .array items => if items.length ≤ names.length then some (names.zip items) else none
  | _ => none

/-- The value of a field of an object. The last of several fields of one name counts. -/
def field? (name : String) : Json → Option Json
  | .object fields => (membersReversed fields).lookup name
  | _ => none

/-- What a look-up finds is an entry of the list. -/
theorem mem_of_lookup {α : Type} {name : String} {value : α} {entries : List (String × α)}
    (h : entries.lookup name = some value) : (name, value) ∈ entries := by
  induction entries with
  | nil => exact nomatch h
  | cons entry entries ih =>
      obtain ⟨key, found⟩ := entry
      by_cases hkey : name = key
      · subst hkey
        simp only [List.lookup_cons, beq_self_eq_true, Option.some.injEq] at h
        simp [h]
      · have hbeq : (name == key) = false := by simp [hkey]
        rw [List.lookup_cons, hbeq] at h
        exact List.mem_cons_of_mem _ (ih h)

/-- The members of a record are smaller than the record. -/
theorem sizeOf_lt_of_members? {names : List String} {json value : Json} {name : String}
    {members : List (String × Json)} (h : json.members? names = some members)
    (hmem : (name, value) ∈ members) : sizeOf value < sizeOf json := by
  cases json with
  | null => exact nomatch h
  | bool => exact nomatch h
  | number => exact nomatch h
  | string => exact nomatch h
  | array items =>
      simp only [members?, Option.ite_none_right_eq_some, Option.some.injEq] at h
      obtain ⟨_, rfl⟩ := h
      have hlt := List.sizeOf_lt_of_mem (List.of_mem_zip hmem).2
      simp only [array.sizeOf_spec]
      omega
  | object fields =>
      simp only [members?, Option.some.injEq] at h
      subst h
      simp only [membersReversed, List.mem_filterMap, List.mem_reverse] at hmem
      obtain ⟨⟨key, found⟩, hfield, hkey⟩ := hmem
      cases key with
      | none => exact nomatch hkey
      | some key =>
          simp only [Option.map_some, Option.some.injEq, Prod.mk.injEq] at hkey
          obtain ⟨_, rfl⟩ := hkey
          have hlt := List.sizeOf_lt_of_mem hfield
          simp only [Prod.mk.sizeOf_spec] at hlt
          simp only [object.sizeOf_spec]
          omega

end Json

end Toolbench
