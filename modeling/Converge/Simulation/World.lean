import Converge.Disk.FileTree
import Converge.Membership.FileStore
import Converge.Simulation.Call
/-!
# A simulated fleet

A world holds what a controller, an infrastructure tool and a membership store in a file would
hold, and a queue of faults for each kind of call.  A call is noted, then meets the next fault of
its queue, and takes effect only if there is none.  Time passes only in sleep.
-/

namespace Converge.Simulation

/-- An application of a simulated controller. -/
structure Deployment where
  units : List AppUnit
  /-- The number that the next unit's name gets. -/
  nextNumber : Nat
  charm : Option String
  channel : Option String

/-- The state of a simulated fleet. -/
structure World where
  /-- The applications of each model. -/
  models : Dict (Dict Deployment)
  /-- The newest revisions, under `charm@channel`. -/
  revisions : Dict Nat
  /-- What the next calls of each kind meet: an error, or nothing. -/
  faults : Dict (List (Option Error))
  /-- The calls so far. -/
  calls : List Call
  /-- The nanoseconds slept so far. -/
  slept : Nat
  now : Timestamp
  tree : FileTree

namespace World

/-- A world with nothing in it. -/
def empty : World where
  models := .empty
  revisions := .empty
  faults := .empty
  calls := []
  slept := 0
  now := ⟨0, 0, 0⟩
  tree := .empty

instance : Inhabited World := ⟨empty⟩

/-! ## Calls -/

/-- Notes a call. -/
def note (call : Call) (world : World) : World :=
  { world with calls := world.calls ++ [call] }

/-- Takes the next fault that a call meets off its queue. -/
def takeFault (call : Call) (world : World) : Option Error × World :=
  match (world.faults.find? call.method).getD [] with
  | [] => (none, world)
  | fault :: rest => (fault, { world with faults := world.faults.insert call.method rest })

/-- An action on a world that may fail. -/
abbrev Action (α : Type) := ExceptT Error (StateM World) α

/-- Makes a call: notes it, and lets it take effect unless it meets a fault. -/
def perform {α : Type} (call : Call) (effect : Action α) : Action α := do
  modify (note call)
  match ← modifyGet (takeFault call) with
  | some fault => throw fault
  | none => effect

/-! ## Applications -/

/-- An application of a model. -/
def deployment? (world : World) (model name : String) : Option Deployment :=
  (world.models.find? model).bind (·.find? name)

/-- Puts an application into a model. -/
def setDeployment (model name : String) (app : Deployment) (world : World) : World :=
  let apps := (world.models.find? model).getD .empty
  { world with models := world.models.insert model (apps.insert name app) }

/-- Takes an application out of a model. -/
def dropDeployment (model name : String) (world : World) : World :=
  let apps := (world.models.find? model).getD .empty
  { world with models := world.models.insert model (apps.erase name) }

/-- An application that has to be there. -/
def expect (model name : String) : Action Deployment := do
  match (← get).deployment? model name with
  | some app => return app
  | none => throw (.applicationNotFound ("no application " ++ name ++ " in " ++ model))

/-- Adds a unit under the next number. -/
def addUnit (model name machine : String) : Action AppUnit := do
  let app ← expect model name
  let unit : AppUnit := ⟨name ++ "/" ++ String.ofList (Text.decimal app.nextNumber), machine⟩
  modify (setDeployment model name
    { app with units := app.units ++ [unit], nextNumber := app.nextNumber + 1 })
  return unit

/-- Removes the units with a name. -/
def removeUnit (model name unit : String) : Action Unit := do
  let app ← expect model name
  modify (setDeployment model name { app with units := app.units.filter (·.name ≠ unit) })

/-- The newest revision of a charm on a channel. -/
def latestRevision (charm channel : String) : Action Nat := do
  match (← get).revisions.find? (charm ++ "@" ++ channel) with
  | some revision => return revision
  | none => throw (.controllerRequest ("no revision of " ++ charm ++ " on " ++ channel))

/-- The applications of a model that have a charm. -/
def status (world : World) (model : String) : ModelStatus :=
  let apps := ((world.models.find? model).getD .empty).entries
  ⟨.ofList (apps.filterMap fun (name, app) => app.charm.map fun charm =>
    (name, ⟨charm, app.channel⟩))⟩

/-! ## Collaborators -/

/-- The controller of the world. -/
def controller : Controller (StateM World) where
  application model name := perform (.application model name) do
    return ⟨name, (← expect model name).units⟩
  addUnit model name machine := perform (.addUnit model name machine) (addUnit model name machine)
  removeUnit model name unit := perform (.removeUnit model name unit) (removeUnit model name unit)
  awaitStatus model names statuses timeout :=
    perform (.awaitStatus model names statuses timeout) (return ⟨⟩)
  awaitReady model name timeout := perform (.awaitReady model name timeout) (return ⟨⟩)
  latestRevision model charm channel :=
    perform (.latestRevision model charm channel) (latestRevision charm channel)
  modelStatus model := perform (.modelStatus model) do return (← get).status model

/-- The infrastructure tool of the world. -/
def infra : InfraTool (StateM World) where
  init config := perform (.init config) (return ⟨⟩)
  apply config inputs := perform (.apply config inputs) (return ⟨⟩)

/-- The longest sleep of the clock of the world: thirty years of 365 days. -/
def longestSleep : Duration := .ofSeconds (30 * 365 * 86400)

/-- The clock of the world. -/
def clock : Clock (StateM World) where
  sleep span := modify fun world =>
    { world with slept := world.slept + min span.nanoseconds longestSleep.nanoseconds }
  now := return (← get).now

/-- The disk of the world. -/
def disk : Disk (StateM World) :=
  FileTree.disk World.tree fun tree world => { world with tree }

/-- The membership store in a file of the world, whose calls are noted and may meet faults. -/
def store (file : Membership.FileStore) : MembershipStore (StateM World) where
  nodes := perform .nodes (file.toStore disk).nodes
  record key := perform (.record key) ((file.toStore disk).record key)
  setRecord key record := perform (.setRecord key record) ((file.toStore disk).setRecord key record)

/-- The collaborators of the world. -/
def site (file : Membership.FileStore) : Site (StateM World) where
  controller
  infra
  store := store file
  clock

end World

end Converge.Simulation
