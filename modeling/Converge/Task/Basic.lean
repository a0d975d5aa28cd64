import Converge.Retry
import Converge.Step
/-!
# Tasks

Each kind of work on a fleet is a structure of its parameters with a function `step`, which makes
a step of it for a site.
-/

namespace Converge.Task

/-- How long to wait for a fleet to settle unless it is said otherwise. -/
def defaultTimeout : Duration := .ofSeconds 1200

/-- Applications to wait for, and the statuses to wait for. -/
structure Wait where
  model : String
  applications : List String
  statuses : List String
  /-- The time after which the wait is given up. -/
  timeout : Duration

variable {m : Type → Type} [Monad m]

/-- Waits until every application has one of the statuses. -/
def Wait.settle (wait : Wait) (site : Site m) : ExceptT Error m Unit :=
  site.controller.awaitStatus wait.model wait.applications wait.statuses wait.timeout

/-- Applies a configuration under a retry policy. -/
def applyConfig (site : Site m) (retry : RetryPolicy) (config : String) (inputs : Record) :
    ExceptT Error m Unit :=
  retry.retry site.clock (site.infra.apply config inputs)

end Converge.Task
