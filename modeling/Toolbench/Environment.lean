/-!
# Environments

The environment of a process is a list of entries, each the name of a variable, an equals sign and
its value. A variable has the value that follows its name and an equals sign in the first entry
that begins so; nothing is called by the empty name. Since an entry does not say where its name
ends, it answers to each name that is followed in it by an equals sign: when `A` is set to `B=c`,
the value of `A=B` is `c`.
-/

namespace Toolbench

/-- The names and the values of variables, in the order of their entries. -/
abbrev Environment := List (String × String)

namespace Environment

/-- The entry of a variable. -/
def entry (name value : String) : List Char :=
  name.toList ++ '=' :: value.toList

/-- The value that the text of an entry gives to a name. -/
def valueIn? (name : String) (text : List Char) : Option String :=
  ((name.toList ++ ['=']).isPrefixOf? text).map String.ofList

/-- The value of a variable. -/
def value? (env : Environment) (name : String) : Option String :=
  if name.isEmpty then none
  else env.findSome? fun (other, value) => valueIn? name (entry other value)

/-- The environment with one more variable, which takes the place of one of the same name. -/
def set (env : Environment) (name value : String) : Environment :=
  env.filter (·.1 ≠ name) ++ [(name, value)]

/-- The environment of a process that is given further variables. Its entries stand in the order
of their names. -/
def extend (env : Environment) (added : List (String × String)) : Environment :=
  (added.foldl (fun env (name, value) => env.set name value) env).mergeSort
    fun a b => a.1 ≤ b.1

theorem isPrefixOf?_append (start rest : List Char) :
    start.isPrefixOf? (start ++ rest) = some rest := by
  induction start with
  | nil => rfl
  | cons c cs ih =>
      have hstep : (c :: cs).isPrefixOf? (c :: (cs ++ rest))
          = if c == c then cs.isPrefixOf? (cs ++ rest) else none := rfl
      rw [List.cons_append, hstep, ih]
      simp

/-- An entry gives a name the value it was made of. -/
theorem valueIn?_entry (name value : String) :
    valueIn? name (entry name value) = some value := by
  have hentry : entry name value = (name.toList ++ ['=']) ++ value.toList := by simp [entry]
  rw [valueIn?, hentry, isPrefixOf?_append]
  simp

/-- The first variable has its own value. -/
theorem value?_cons_self {name : String} (value : String) (env : Environment)
    (h : name.isEmpty = false) : value? ((name, value) :: env) name = some value := by
  simp [value?, h, valueIn?_entry]

example : value? [("A", "B=c")] "A=B" = some "c" := by cbv
example : value? [("A", "1"), ("A=B", "2")] "A" = some "1" := by cbv
example : value? [("", "x")] "" = none := by cbv
example : extend [("B", "1"), ("A", "2")] [("B", "3")] = [("A", "2"), ("B", "3")] := by cbv

end Environment

end Toolbench
