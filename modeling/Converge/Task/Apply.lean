import Converge.Task.Basic
/-!
# Infrastructure configurations

`Init` prepares the backend of a configuration, `Apply` applies it with fixed inputs and may
wait for applications afterwards.  Neither has a check: they run every time.
-/

namespace Converge.Task

variable {m : Type → Type} [Monad m]

/-- Preparing a configuration's backend. -/
structure Init where
  config : String

/-- The step of preparing. -/
def Init.step (task : Init) (site : Site m) : Step m :=
  .ofRun "Initialize infra" "Initializing infra-as-code backend" do
    site.infra.init task.config
    return .completed

/-- Applying a configuration. -/
structure Apply where
  config : String
  inputs : Record
  /-- The name of the step. -/
  name : String := "Apply " ++ config
  retry : RetryPolicy := .standard
  /-- What to wait for afterwards. -/
  wait : Option Wait := none

/-- The step of applying. -/
def Apply.step (task : Apply) (site : Site m) : Step m :=
  .ofRun task.name "Applying infra-as-code configuration" do
    applyConfig site task.retry task.config task.inputs
    if let some wait := task.wait then wait.settle site
    return .completed

end Converge.Task
