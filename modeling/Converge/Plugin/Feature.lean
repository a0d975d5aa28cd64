import Converge.Plugin.Lifecycle
import Converge.Task.Apply
/-!
# Features

A feature is a plugin that applies one configuration with one set of inputs to be enabled and
with another to be disabled.
-/

namespace Converge.Plugin

/-- Applications that have to be active once a feature is enabled. -/
structure FeatureWait where
  model : String
  applications : List String
  timeout : Duration

/-- A plugin that sets inputs of a configuration. -/
structure Feature where
  name : String
  version : String
  config : String
  enableInputs : Record
  disableInputs : Record
  requires : List Requirement := []
  retry : RetryPolicy := .standard
  wait : Option FeatureWait := none

namespace Feature

variable {m : Type → Type} [Monad m]

/-- Applying the inputs that enable the feature, and waiting for its applications. -/
def enableTask (feature : Feature) : Task.Apply where
  config := feature.config
  inputs := feature.enableInputs
  name := "Enable " ++ feature.name
  retry := feature.retry
  wait := feature.wait.map fun wait => ⟨wait.model, wait.applications, ["active"], wait.timeout⟩

/-- Applying the inputs that disable the feature. -/
def disableTask (feature : Feature) : Task.Apply where
  config := feature.config
  inputs := feature.disableInputs
  name := "Disable " ++ feature.name
  retry := feature.retry

/-- The plugin of a feature on a site. -/
def plugin (feature : Feature) (site : Site m) : Definition m :=
  { Definition.ofPlans feature.name feature.version [feature.enableTask.step site]
      [feature.disableTask.step site] with requires := feature.requires }

end Feature

end Converge.Plugin
