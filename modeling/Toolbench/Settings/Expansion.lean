/-!
# References to environment variables

A value may refer to a variable as `$` and its name in braces. Each reference is replaced by the
value of the variable, or by nothing when the variable is unset or the name is empty. A reference
that is not closed stays as it is, and what is put in is not looked at again.
-/

namespace Toolbench.Settings

/-- What a reference to a variable is replaced by. -/
def referenced (env : String → Option String) (name : List Char) : List Char :=
  if name.isEmpty then [] else ((env (String.ofList name)).getD "").toList

/-- Replace the references of a text. Inside a reference, the name so far is kept, last character
first. -/
def expandFrom (env : String → Option String) : Option (List Char) → List Char → List Char
  | none, [] => []
  | some name, [] => '$' :: '\x7b' :: name.reverse
  | none, '$' :: '\x7b' :: cs => expandFrom env (some []) cs
  | none, c :: cs => c :: expandFrom env none cs
  | some name, '\x7d' :: cs => referenced env name.reverse ++ expandFrom env none cs
  | some name, c :: cs => expandFrom env (some (c :: name)) cs

/-- Replace the references of a value. -/
def expand (env : String → Option String) (value : String) : String :=
  String.ofList (expandFrom env none value.toList)

/-- Replace the references in the values of variables. -/
def expandAll (env : String → Option String) (settings : List (String × String)) :
    List (String × String) :=
  settings.map fun (name, value) => (name, expand env value)

end Toolbench.Settings
