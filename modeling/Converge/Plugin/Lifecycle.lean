import Converge.Plan
import Converge.Plugin.Record
/-!
# Enabling and disabling plugins

A plugin is enabled by its plan, between two hooks, after the plugins that it requires; it is
disabled in the same way without looking at requirements.  The record is written last, so nothing
is stored unless everything before has succeeded.
-/

namespace Converge.Plugin

/-- Another plugin that has to be enabled first. -/
structure Requirement where
  name : String
  /-- Whether the plugin also works without it. -/
  optional : Bool
  deriving DecidableEq

/-- Something that can be switched on and off on a running fleet. -/
structure Definition (m : Type → Type) where
  name : String
  version : String
  requires : List Requirement
  enablePlan : List (Step m)
  disablePlan : List (Step m)
  preEnable : ExceptT Error m Unit
  postEnable : ExceptT Error m Unit
  preDisable : ExceptT Error m Unit
  postDisable : ExceptT Error m Unit

variable {m : Type → Type} [Monad m]

/-- A plugin of two plans, with no requirements and with hooks that do nothing. -/
def Definition.ofPlans (name version : String) (enablePlan disablePlan : List (Step m)) :
    Definition m where
  name
  version
  requires := []
  enablePlan
  disablePlan
  preEnable := return ⟨⟩
  postEnable := return ⟨⟩
  preDisable := return ⟨⟩
  postDisable := return ⟨⟩

/-! ## Stored states -/

/-- The stored state of a plugin. -/
def stateOf (store : MembershipStore m) (name : String) : ExceptT Error m State := do
  State.ofRecord (← store.recordOrEmpty (key name))

/-- Whether a plugin is enabled. -/
def isEnabled (store : MembershipStore m) (name : String) : ExceptT Error m Bool := do
  return (← stateOf store name).enabled

/-- Looks at requirements in order; fails with the first one that is neither enabled nor
optional. -/
def checkRequirements (store : MembershipStore m) (plugin : String) :
    List Requirement → ExceptT Error m Unit
  | [] => return ⟨⟩
  | requirement :: rest => do
    if !(← isEnabled store requirement.name) && !requirement.optional then
      throw (.missingRequirement plugin requirement.name)
    checkRequirements store plugin rest

/-- Writes over a plugin's record whether it is enabled, its version and the time. -/
def persist (store : MembershipStore m) (clock : Clock m) (name version : String)
    (enabled : Bool) : ExceptT Error m Unit := do
  let record ← store.recordOrEmpty (key name)
  let state : State := ⟨enabled, some version, some (← clock.now), .empty⟩
  store.setRecord (key name) (state.mergeInto record)

/-! ## The lifecycle -/

namespace Definition

/-- Runs a hook; its failure is reported under its name. -/
def runHook (plugin : Definition m) (hook : String) (action : ExceptT Error m Unit) :
    ExceptT Error m Unit :=
  action.adapt fun e => .hookFailed plugin.name hook e.message

/-- Executes a plan; its failure is reported with the message of the step that failed. -/
def runPlan (plugin : Definition m) (plan : List (Step m)) : ExceptT Error m Report := do
  let report ← (Plan.execute plan : m Report)
  if report.succeeded then return report
  else throw (.planFailed plugin.name (report.outcome.message.getD ""))

/-- Enables a plugin. -/
def enable (plugin : Definition m) (store : MembershipStore m) (clock : Clock m) :
    ExceptT Error m Report := do
  checkRequirements store plugin.name plugin.requires
  plugin.runHook "pre_enable" plugin.preEnable
  let report ← plugin.runPlan plugin.enablePlan
  plugin.runHook "post_enable" plugin.postEnable
  persist store clock plugin.name plugin.version true
  return report

/-- Disables a plugin. -/
def disable (plugin : Definition m) (store : MembershipStore m) (clock : Clock m) :
    ExceptT Error m Report := do
  plugin.runHook "pre_disable" plugin.preDisable
  let report ← plugin.runPlan plugin.disablePlan
  plugin.runHook "post_disable" plugin.postDisable
  persist store clock plugin.name plugin.version false
  return report

end Definition

end Converge.Plugin
