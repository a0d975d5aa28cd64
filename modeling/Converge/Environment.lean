import Converge.Text.Split
/-!
# Environments

Named texts that a program is given by its surroundings, as actions in a monad.  Main statement: a
name without an equals sign stands for the variable of that name (`valueOf?_of_not_mem`).
-/

namespace Converge

/-- The environment of a program. -/
structure Environment (m : Type → Type) where
  /-- The value of a variable that is set to a text. -/
  find? (name : String) : m (Option String)
  /-- The path that a variable is set to, which need not be a text. -/
  path? (name : String) : m (Option String)
  /-- Sets a variable.  The program comes to an end if the system does not take it. -/
  set (name value : String) : m Unit
  /-- The home directory that the system keeps for the account. -/
  accountHome : m (Option String)

namespace Environment

/-- Whether the system takes a variable with a value. -/
def takes (name value : String) : Bool :=
  !name.isEmpty && '=' ∉ name.toList && '\x00' ∉ name.toList && '\x00' ∉ value.toList

variable {m : Type → Type} [Monad m]

/-- What a name stands for that may have an equals sign in it.  A variable is kept as one text of
its name, an equals sign and its value, so such a name reads on into the value and stands for the
rest of it. -/
def valueOf? (environment : Environment m) (name : String) : m (Option String) :=
  match Text.splitFirst '=' name.toList with
  | (_, none) => environment.find? name
  | (key, some start) => do
    let some value ← environment.find? (String.ofList key) | return none
    let start := start ++ ['=']
    if start.isPrefixOf value.toList then
      return some (String.ofList (value.toList.drop start.length))
    else return none

theorem valueOf?_of_not_mem (environment : Environment m) {name : String}
    (h : '=' ∉ name.toList) : environment.valueOf? name = environment.find? name := by
  rw [valueOf?, Text.splitFirst_of_not_mem h]

end Environment

end Converge
