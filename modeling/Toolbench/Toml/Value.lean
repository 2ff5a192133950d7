import Toolbench.Toml.Moment

/-!
# TOML values

The values that a configuration document holds. Of a floating-point number only the text is kept,
because no setting is one. A date or time counts as a table with a single key of its own, under
which its text stands.
-/

namespace Toolbench

/-- A value of a document. -/
inductive Toml where
  | string (text : String)
  | integer (value : Int)
  | float (text : String)
  /-- A number that has the form of one, but is too great or has digits that its base lacks. -/
  | valueless
  | moment (value : Toml.Moment)
  | bool (value : Bool)
  | array (items : List Toml)
  | table (entries : List (String × Toml))
deriving Repr

namespace Toml

/-- The text of a string. -/
def text? : Toml → Option String
  | .string text => some text
  | _ => none

/-- A natural number that fits 64 bits. -/
def natural? : Toml → Option Nat
  | .integer value => if 0 ≤ value ∧ value.toNat < UInt64.size then some value.toNat else none
  | _ => none

/-- The items of an array. -/
def items? : Toml → Option (List Toml)
  | .array items => some items
  | _ => none

/-- The key of a date or time that is taken for a table. -/
def momentKey : String :=
  "$__toml_private_datetime"

/-- The entries of a table. -/
def entries? : Toml → Option (List (String × Toml))
  | .table entries => some entries
  | .moment value => some [(momentKey, .string value.text)]
  | _ => none

/-- The value holds nothing: it is an empty array or an empty table. -/
def isEmpty : Toml → Bool
  | .array [] => true
  | .table [] => true
  | _ => false

/-- One of several names: a string, or a table whose only key is the name and which holds nothing
under it. -/
def name? : Toml → Option String
  | .string text => some text
  | .table [(name, value)] => if value.isEmpty then some name else none
  | _ => none

mutual
/-- Every number in a value has a value. -/
def hasValue : Toml → Bool
  | .valueless => false
  | .array items => itemsHaveValues items
  | .table entries => entriesHaveValues entries
  | _ => true

/-- Every number in the items of an array has a value. -/
def itemsHaveValues : List Toml → Bool
  | [] => true
  | item :: items => item.hasValue && itemsHaveValues items

/-- Every number in the entries of a table has a value. -/
def entriesHaveValues : List (String × Toml) → Bool
  | [] => true
  | (_, value) :: entries => value.hasValue && entriesHaveValues entries
end

end Toml

end Toolbench
