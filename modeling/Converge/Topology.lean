import Converge.Json.Decode
/-!
# What runs where

Units of applications on machines, the status document of a model, and the nodes of the cluster.
Main statements: the machine list of an application is in ascending order and has no repetition
(`pairwise_machineIds`), it holds exactly the machines of the units (`mem_machineIds`), and the
first pair of a machine and a unit with some machine is of the first unit there
(`find?_machineUnits`).
-/

namespace Converge

/-! ## Units and applications -/

/-- One running instance of an application, on a machine. -/
structure AppUnit where
  name : String
  /-- The id of the machine that hosts the unit. -/
  machine : String
  deriving DecidableEq

/-- A machine and the name of a unit that it hosts. -/
structure MachineUnit where
  machine : String
  unit : String
  deriving DecidableEq

/-- A deployed application with its units. -/
structure Application where
  name : String
  units : List AppUnit
  deriving DecidableEq

namespace AppUnit

/-- The unit's machine and its name. -/
def placed (unit : AppUnit) : MachineUnit :=
  ⟨unit.machine, unit.name⟩

/-- The written form. -/
def toJson (unit : AppUnit) : Json :=
  .obj [("name", .str unit.name), ("machine", .obj [("id", .str unit.machine)])]

/-- Reads the id of a machine. -/
def decodeMachine : Json.Decoder String := fun levels tree => do
  (← Json.Fields.ofTree? ["id"] levels tree).required "id" .text

/-- Reads the written form. -/
def decode : Json.Decoder AppUnit := fun levels tree => do
  let fields ← Json.Fields.ofTree? ["name", "machine"] levels tree
  return {
    name := ← fields.required "name" .text
    machine := ← fields.required "machine" decodeMachine }

end AppUnit

/-- The written form. -/
def MachineUnit.toJson (placed : MachineUnit) : Json :=
  .obj [("machine_id", .str placed.machine), ("unit_name", .str placed.unit)]

namespace Application

/-- The machines that host a unit, in ascending order and each once. -/
def machineIds (app : Application) : List String :=
  (Dict.ofList (app.units.map fun unit => (unit.machine, ()))).keys

/-- The machine and the name of every unit, in the order of the units. -/
def machineUnits (app : Application) : List MachineUnit :=
  app.units.map AppUnit.placed

/-- The first unit on a machine. -/
def unitOn? (app : Application) (machine : String) : Option AppUnit :=
  app.units.find? (·.machine = machine)

/-- The written form. -/
def toJson (app : Application) : Json :=
  .obj [("name", .str app.name), ("units", .arr (app.units.map AppUnit.toJson))]

/-- Reads the written form; units that are left out are none. -/
def decode : Json.Decoder Application := fun levels tree => do
  let fields ← Json.Fields.ofTree? ["name", "units"] levels tree
  return {
    name := ← fields.required "name" .text
    units := ← fields.withDefault "units" (.list AppUnit.decode) [] }

/-! ### The machine list -/

theorem pairwise_machineIds (app : Application) :
    app.machineIds.Pairwise (· < ·) :=
  List.pairwise_map.2 (Dict.sorted _)

theorem mem_machineIds {app : Application} {machine : String} :
    machine ∈ app.machineIds ↔ ∃ unit ∈ app.units, unit.machine = machine := by
  simp [machineIds, Dict.mem_keys_ofList]

/-! ### Looking a machine up -/

theorem mem_of_unitOn? {app : Application} {machine : String} {unit : AppUnit}
    (h : app.unitOn? machine = some unit) : unit ∈ app.units :=
  List.mem_of_find?_eq_some h

theorem machine_of_unitOn? {app : Application} {machine : String} {unit : AppUnit}
    (h : app.unitOn? machine = some unit) : unit.machine = machine := by
  simpa using List.find?_some h

/-- Searching the pairs finds what searching the units finds. -/
theorem find?_machineUnits (app : Application) (machine : String) :
    app.machineUnits.find? (·.machine = machine) = (app.unitOn? machine).map AppUnit.placed :=
  List.find?_map

end Application

/-! ## The status of a model -/

/-- What a model reports about one application. -/
structure ApplicationStatus where
  /-- The charm's address. -/
  charm : String
  /-- The channel that the charm follows. -/
  channel : Option String
  deriving DecidableEq

/-- What a model reports about its applications. -/
structure ModelStatus where
  applications : Dict ApplicationStatus

namespace ApplicationStatus

/-- The written form. -/
def toJson (status : ApplicationStatus) : Json :=
  .obj [("charm", .str status.charm), ("charm-channel", .ofString? status.channel)]

/-- Reads the written form; a channel may be left out or null. -/
def decode : Json.Decoder ApplicationStatus := fun levels tree => do
  let fields ← Json.Fields.ofTree? ["charm", "charm-channel"] levels tree
  return {
    charm := ← fields.required "charm" .text
    channel := ← fields.withDefault "charm-channel" (.optional .text) none }

end ApplicationStatus

namespace ModelStatus

/-- The written form. -/
def toJson (status : ModelStatus) : Json :=
  .obj [("applications", .ofRecord (status.applications.map ApplicationStatus.toJson))]

/-- Reads the written form; applications that are left out are none. -/
def decode : Json.Decoder ModelStatus := fun levels tree => do
  let fields ← Json.Fields.ofTree? ["applications"] levels tree
  return ⟨← fields.withDefault "applications" (.dict ApplicationStatus.decode) .empty⟩

end ModelStatus

/-! ## Nodes -/

/-- A member of the cluster. -/
structure Node where
  name : String
  /-- The id of the node's machine. -/
  machine : String
  deriving DecidableEq

namespace Node

/-- The written form. -/
def toJson (node : Node) : Json :=
  .obj [("name", .str node.name), ("machineid", .str node.machine)]

/-- Reads the written form. -/
def decode : Json.Decoder Node := fun levels tree => do
  let fields ← Json.Fields.ofTree? ["name", "machineid"] levels tree
  return {
    name := ← fields.required "name" .text
    machine := ← fields.required "machineid" .text }

end Node

end Converge
