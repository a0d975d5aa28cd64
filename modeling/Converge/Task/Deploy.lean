import Converge.Placement
import Converge.Task.Basic
/-!
# Deploying

Deploys an application by applying its configuration.  An application that is already there keeps
the machines it runs on; one that is not is placed by the configuration.
-/

namespace Converge.Task

/-- Deploying an application. -/
structure Deploy where
  config : String
  application : String
  model : String
  /-- Whether to deploy an application that is already there. -/
  refresh : Bool := false
  /-- The application to wait for afterwards. -/
  readiness : Option String := none
  timeout : Duration := defaultTimeout
  retry : RetryPolicy := .standard

namespace Deploy

variable {m : Type → Type} [Monad m]

/-- The application, if it is there. -/
def observe (task : Deploy) (site : Site m) : ExceptT Error m (Option Application) :=
  absentAsNone .applicationNotFound (site.controller.application task.model task.application)

/-- The inputs that keep an application on its machines. -/
def pin (task : Deploy) (app : Application) : Record :=
  .ofList [(Placement.machineIdsKey, .ofStrings app.machineIds),
    (Placement.machineModelKey, .str task.model)]

theorem machineIds_pin (task : Deploy) (app : Application) :
    Placement.machineIds (task.pin app) = app.machineIds := by
  have hne : Placement.machineIdsKey ≠ Placement.machineModelKey := by decide
  refine Placement.machineIds_eq ?_
  show ((Dict.empty.insert Placement.machineIdsKey (Json.ofStrings app.machineIds)).insert
    Placement.machineModelKey (Json.str task.model)).find? Placement.machineIdsKey = _
  rw [Dict.find?_insert, if_neg hne, Dict.find?_insert, if_pos rfl]

/-- Whether there is something to deploy. -/
def check (task : Deploy) (site : Site m) : ExceptT Error m Outcome := do
  if task.refresh then return .completed
  match ← task.observe site with
  | some _ => return .skipped (task.application ++ " already deployed")
  | none => return .completed

/-- Applies the configuration and waits. -/
def run (task : Deploy) (site : Site m) : ExceptT Error m Outcome := do
  let inputs := match ← task.observe site with
    | some app => task.pin app
    | none => .empty
  applyConfig site task.retry task.config inputs
  if let some name := task.readiness then
    site.controller.awaitReady task.model name task.timeout
  return .completed

/-- The step of deploying. -/
def step (task : Deploy) (site : Site m) : Step m where
  name := "Deploy " ++ task.application
  description := "Deploying machine application"
  prompts := false
  Memory := Unit
  memory := ⟨⟩
  check := Outcome.settle (Step.call (task.check site))
  run := Outcome.settle (Step.call (task.run site))

end Deploy

end Converge.Task
