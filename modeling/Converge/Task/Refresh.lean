import Converge.Outcome
import Converge.Task.Basic
import Converge.Update
/-!
# Refreshing applications

Moves the applications that are behind to their wanted channels, with one apply for all of them.
-/

namespace Converge.Task

/-- The wanted channel of an application. -/
structure Target where
  application : String
  channel : String
  /-- The input that carries the channel. -/
  input : String
  deriving DecidableEq

/-- Refreshing applications. -/
structure Refresh where
  config : String
  model : String
  targets : List Target
  timeout : Duration := defaultTimeout
  retry : RetryPolicy := .standard

namespace Refresh

variable {m : Type → Type} [Monad m]

/-- The statuses that a refreshed application may have. -/
def acceptedStatuses : List String :=
  ["active", "blocked", "unknown"]

/-- Whether a target's application is deployed and behind. -/
def isBehind (task : Refresh) (site : Site m) (status : ModelStatus) (target : Target) :
    ExceptT Error m Bool := do
  match status.applications.find? target.application with
  | none => return false
  | some app =>
    if channelUpdateNeeded (app.channel.getD "") target.channel then return true
    else revisionUpdateNeeded site.controller target.application task.model status

/-- The targets that are behind, in their order. -/
def behind (task : Refresh) (site : Site m) (status : ModelStatus) :
    List Target → ExceptT Error m (List Target)
  | [] => return []
  | target :: rest => do
    let isBehind ← task.isBehind site status target
    let others ← task.behind site status rest
    return if isBehind then target :: others else others

/-- The targets to refresh, once the check has found any. -/
abbrev Memory := List Target

/-- Whether a target is behind. -/
def check (task : Refresh) (site : Site m) : Step.Action m Memory Outcome := do
  let status ← Step.call (site.controller.modelStatus task.model)
  let behind ← Step.call (task.behind site status task.targets)
  if behind.isEmpty then return .skipped "All applications are up to date"
  else
    set behind
    return .completed

/-- The inputs that carry the channels of targets; the last target of an input counts. -/
def inputs (targets : List Target) : Record :=
  .ofList (targets.map fun target => (target.input, .str target.channel))

/-- Applies the channels of the targets, of all if the check has found none, and waits. -/
def run (task : Refresh) (site : Site m) : Step.Action m Memory Outcome := do
  if (← get).isEmpty then set task.targets
  let targets ← get
  let names := targets.map (·.application)
  Step.call (applyConfig site task.retry task.config (inputs targets))
  Step.call (site.controller.awaitStatus task.model names acceptedStatuses task.timeout)
  return .completedWith (.obj [("upgraded", .ofStrings names)])

/-- The step of refreshing. -/
def step (task : Refresh) (site : Site m) : Step m where
  name := "Upgrade applications"
  description := "Refreshing applications to their target channels"
  prompts := false
  Memory := Memory
  memory := []
  check := Outcome.settle (task.check site)
  run := Outcome.settle (task.run site)

end Refresh

end Converge.Task
