import Converge.Outcome
import Converge.Placement
import Converge.Task.Units
/-!
# Placing a unit

Adds a unit of an application on a node unless the node's machine hosts one.  The machine is noted
in the record before the unit is waited for, because a repetition finds the unit and skips.
-/

namespace Converge.Task

/-- Placing a unit on a node. -/
structure Place extends UnitOnNode

namespace Place

variable {m : Type → Type} [Monad m]

/-- The node's machine once it is known. -/
abbrev Memory := Option String

/-- The node's machine, from the memory or else from the store. -/
def resolve (task : Place) (site : Site m) : Step.Action m Memory (Option String) := do
  match ← get with
  | some machine => return some machine
  | none =>
    let found ← Step.call (task.machine? site)
    set found
    return found

/-- Whether the node's machine lacks a unit. -/
def check (task : Place) (site : Site m) : Step.Action m Memory Outcome := do
  match ← task.resolve site with
  | none => return .failed task.missingMachine
  | some machine =>
    match ← Step.call (task.observe site) with
    | none => return .completed
    | some app =>
      if (app.unitOn? machine).isSome then
        return .skipped (task.application ++ " unit already deployed on machine " ++ machine)
      else
        return .completed

/-- Adds the unit, notes the machine and waits. -/
def run (task : Place) (site : Site m) : Step.Action m Memory Outcome := do
  match ← task.resolve site with
  | none => return .failed task.missingMachine
  | some machine =>
    let _ ← Step.call (site.controller.addUnit task.model task.application machine)
    Step.call (Placement.note site.store task.key machine .join)
    Step.call
      (site.controller.awaitStatus task.model [task.application] ["active"] task.timeout)
    return .completed

/-- The step of placing. -/
def step (task : Place) (site : Site m) : Step m where
  name := "Add " ++ task.application ++ " unit"
  description := "Adding application unit to machine"
  prompts := false
  Memory := Memory
  memory := none
  check := Outcome.settle (task.check site)
  run := Outcome.settle (task.run site)

end Place

end Converge.Task
