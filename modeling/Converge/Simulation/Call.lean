import Converge.Duration
import Converge.Error
import Converge.Json.Basic
/-!
# Calls on collaborators

What was asked of a collaborator, with its arguments.  A simulated fleet keeps the list of the
calls that were made on it.
-/

namespace Converge.Simulation

/-- A call on a collaborator. -/
inductive Call where
  | application (model name : String)
  | addUnit (model name machine : String)
  | removeUnit (model name unit : String)
  | awaitStatus (model : String) (names statuses : List String) (timeout : Duration)
  | awaitReady (model name : String) (timeout : Duration)
  | latestRevision (model charm channel : String)
  | modelStatus (model : String)
  | init (config : String)
  | apply (config : String) (inputs : Record)
  | nodes
  | record (key : String)
  | setRecord (key : String) (record : Record)
  /-- A scripted step or plugin was called by one of its parts. -/
  | script (part name : String)

namespace Call

/-- The name of what was called. -/
def method : Call → String
  | .application .. => "get_application"
  | .addUnit .. => "add_unit"
  | .removeUnit .. => "remove_unit"
  | .awaitStatus .. => "wait_until_desired_status"
  | .awaitReady .. => "wait_application_ready"
  | .latestRevision .. => "get_available_charm_revision"
  | .modelStatus _ => "get_model_status"
  | .init _ => "init"
  | .apply .. => "apply"
  | .nodes => "list_nodes"
  | .record _ => "read_config"
  | .setRecord .. => "update_config"
  | .script part _ => part

/-- The arguments of a call. -/
def arguments : Call → List Json
  | .application model name => [.str model, .str name]
  | .addUnit model name machine => [.str model, .str name, .str machine]
  | .removeUnit model name unit => [.str model, .str name, .str unit]
  | .awaitStatus model names statuses timeout =>
    [.str model, .ofStrings names, .ofStrings statuses, .int timeout.seconds]
  | .awaitReady model name timeout => [.str model, .str name, .int timeout.seconds]
  | .latestRevision model charm channel => [.str model, .str charm, .str channel]
  | .modelStatus model => [.str model]
  | .init config => [.str config]
  | .apply config inputs => [.str config, .ofRecord inputs]
  | .nodes => []
  | .record key => [.str key]
  | .setRecord key value => [.str key, .ofRecord value]
  | .script _ name => [.str name]

/-- The written form: the name and the arguments. -/
def toJson (call : Call) : Json :=
  .arr (.str call.method :: call.arguments)

end Call

end Converge.Simulation
