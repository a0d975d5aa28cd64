import Converge.Outcome
import Converge.Placement
import Converge.Task.Units
/-!
# Withdrawing a unit

Removes the unit of an application on a node, if there is one.  The machine is taken out of the
record before the application is waited for, because a repetition finds no unit and skips.
-/

namespace Converge.Task

/-- Withdrawing a unit from a node. -/
structure Withdraw extends UnitOnNode

namespace Withdraw

variable {m : Type → Type} [Monad m]

/-- The unit to remove and its machine, once the check has found one. -/
abbrev Memory := Option MachineUnit

/-- Whether there is a unit to remove. -/
def check (task : Withdraw) (site : Site m) : Step.Action m Memory Outcome := do
  match ← Step.call (task.machine? site) with
  | none => return .skipped task.missingMachine
  | some machine =>
    match ← Step.call (task.observe site) with
    | none => return .skipped ("Application " ++ task.application ++ " has not been deployed")
    | some app =>
      match app.machineUnits.find? (·.machine = machine) with
      | none =>
        return .skipped (task.application ++ " unit not deployed on machine " ++ machine)
      | some placed =>
        set (some placed)
        return .completed

/-- Removes the unit, notes that its machine has left, and waits. -/
def run (task : Withdraw) (site : Site m) : Step.Action m Memory Outcome := do
  if let some placed := ← get then
    Step.call (site.controller.removeUnit task.model task.application placed.unit)
    Step.call (Placement.note site.store task.key placed.machine .leave)
  Step.call (site.controller.awaitReady task.model task.application task.timeout)
  return .completed

/-- The step of withdrawing. -/
def step (task : Withdraw) (site : Site m) : Step m where
  name := "Remove " ++ task.application ++ " unit"
  description := "Removing application unit from machine"
  prompts := false
  Memory := Memory
  memory := none
  check := Outcome.settle (task.check site)
  run := Outcome.settle (task.run site)

end Withdraw

end Converge.Task
