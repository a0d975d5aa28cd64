import Converge.Plugin.Lifecycle
import Converge.Simulation.World
/-!
# Scripted steps and plugins

Steps and plugins that do nothing but note that they were called and end as they were told.
-/

namespace Converge.Simulation

/-- Notes the call of a part of a script. -/
def noteScript (part name : String) : StateM World Unit :=
  modify (World.note (.script part name))

/-- A step that ends as it is told. -/
structure ScriptedStep where
  name : String
  description : String
  prompts : Bool := false
  check : Outcome
  run : Outcome

/-- The step of a script. -/
def ScriptedStep.step (script : ScriptedStep) : Step (StateM World) where
  name := script.name
  description := script.description
  prompts := script.prompts
  Memory := Unit
  memory := ⟨⟩
  check := do
    StateT.lift (noteScript "is_skip" script.name)
    return script.check
  run := do
    StateT.lift (noteScript "run" script.name)
    return script.run

/-- A plugin whose hooks fail as they are told. -/
structure ScriptedPlugin where
  name : String
  version : String
  requires : List Plugin.Requirement
  /-- The hooks that fail, by name. -/
  hooks : Dict Error
  enablePlan : List (Step (StateM World))
  disablePlan : List (Step (StateM World))

namespace ScriptedPlugin

/-- A hook of a script. -/
def hook (script : ScriptedPlugin) (name : String) : World.Action Unit := do
  noteScript name script.name
  if let some error := script.hooks.find? name then throw error

/-- The plugin of a script. -/
def plugin (script : ScriptedPlugin) : Plugin.Definition (StateM World) where
  name := script.name
  version := script.version
  requires := script.requires
  enablePlan := script.enablePlan
  disablePlan := script.disablePlan
  preEnable := script.hook "pre_enable"
  postEnable := script.hook "post_enable"
  preDisable := script.hook "pre_disable"
  postDisable := script.hook "post_disable"

end ScriptedPlugin

end Converge.Simulation
