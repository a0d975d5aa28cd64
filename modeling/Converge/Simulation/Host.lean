import Converge.Dict
import Converge.Disk.FileTree
import Converge.Environment
/-!
# A simulated host

What a program finds on the machine it runs on: a disk and an environment, both as values.  An
action of the program on the host has no value when the program comes to an end in it.
-/

namespace Converge.Simulation

/-- What a variable is set to. -/
inductive Binding where
  | text (value : String)
  /-- What is no text, and the path that it stands for. -/
  | other (path : String)

namespace Binding

/-- The text, if it is one. -/
def text? : Binding → Option String
  | .text value => some value
  | .other _ => none

/-- The path that it stands for. -/
def path : Binding → String
  | .text value => value
  | .other path => path

end Binding

/-- The state of a simulated host. -/
structure Host where
  tree : FileTree
  bindings : Dict Binding
  /-- The home directory that the system keeps for the account. -/
  accountHome : Option String

namespace Host

/-- The value of a variable that is set to a text. -/
def text? (host : Host) (name : String) : Option String :=
  (host.bindings.find? name).bind Binding.text?

/-- The path that a variable is set to. -/
def path? (host : Host) (name : String) : Option String :=
  (host.bindings.find? name).map Binding.path

/-- An action of a program on the host. -/
abbrev Action := OptionT (StateM Host)

/-- The disk of the host. -/
def disk : Disk Action :=
  (FileTree.disk Host.tree fun tree host => { host with tree }).lift

/-- The environment of the host. -/
def environment : Environment Action where
  find? name := return (← get).text? name
  path? name := return (← get).path? name
  set name value := do
    if Environment.takes name value then
      modify fun host => { host with bindings := host.bindings.insert name (.text value) }
    else failure
  accountHome := return (← get).accountHome

end Host

end Converge.Simulation
