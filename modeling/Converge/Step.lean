import Converge.Collaborator
import Converge.Outcome
/-!
# Steps

A step is a unit of work that can be repeated.  Its check only looks whether the work is needed;
its run does it.  What the check finds out may be remembered for the run, so both carry a memory
of the step's own.  `Step.Action` is the language they are written in: actions that see the memory
and may fail.
-/

namespace Converge

/-- A unit of idempotent work. -/
structure Step (m : Type → Type) where
  name : String
  /-- What the step does, for a reader. -/
  description : String
  /-- Whether it asks the operator for input. -/
  prompts : Bool
  /-- What the step remembers between its check and its run. -/
  Memory : Type
  memory : Memory
  /-- Skipped when the desired state is there, completed when there is work to do, failed when
  neither can be told. -/
  check : StateT Memory m Outcome
  /-- Does the work: completed or failed. -/
  run : StateT Memory m Outcome

namespace Step

variable {m : Type → Type} {σ α : Type}

/-- An action that sees a memory and may fail; what it has remembered stays when it fails. -/
abbrev Action (m : Type → Type) (σ α : Type) := ExceptT Error (StateT σ m) α

variable [Monad m]

/-- An action of a collaborator, which does not see the memory. -/
def call (action : ExceptT Error m α) : Action m σ α :=
  ExceptT.mk (StateT.lift action.run)

/-- A step that needs no check and remembers nothing. -/
def ofRun (name description : String) (run : ExceptT Error m Outcome) : Step m where
  name
  description
  prompts := false
  Memory := Unit
  memory := ⟨⟩
  check := return .completed
  run := Outcome.settle (call run)

end Step

end Converge
