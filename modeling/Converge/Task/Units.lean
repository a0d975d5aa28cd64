import Converge.Task.Basic
/-!
# Units on nodes

The parameters that placing a unit on a node and withdrawing it have in common.
-/

namespace Converge.Task

/-- An application's unit on a node of the cluster. -/
structure UnitOnNode where
  /-- The name of the node. -/
  node : String
  /-- The key of the record that lists the application's machines. -/
  key : String
  application : String
  model : String
  timeout : Duration := defaultTimeout

namespace UnitOnNode

variable {m : Type → Type} [Monad m]

/-- What is said of a node that the store does not have. -/
def missingMachine (task : UnitOnNode) : String :=
  "machine " ++ task.node ++ " does not exist in cluster database"

/-- The machine of the node, if the store has the node. -/
def machine? (task : UnitOnNode) (site : Site m) : ExceptT Error m (Option String) := do
  return (← absentAsNone .nodeNotFound (site.store.findNode task.node)).map (·.machine)

/-- The application, if it is there. -/
def observe (task : UnitOnNode) (site : Site m) : ExceptT Error m (Option Application) :=
  absentAsNone .applicationNotFound (site.controller.application task.model task.application)

end UnitOnNode

end Converge.Task
