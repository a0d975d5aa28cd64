import Converge.Duration
import Converge.Error
import Converge.Timestamp
import Converge.Topology
/-!
# Collaborators

What the engine needs of the world: a deployment controller, an infrastructure tool, a membership
store and a clock, each a structure of actions in a monad `m`.  An action that may fail says so in
its type; a clock never fails.  A `Site` holds one of each.
-/

namespace Converge

variable {m : Type → Type}

/-- The deployment controller of a fleet. -/
structure Controller (m : Type → Type) where
  /-- An application of a model; fails with `applicationNotFound` when there is none. -/
  application (model name : String) : ExceptT Error m Application
  /-- Adds a unit of an application on a machine. -/
  addUnit (model name machine : String) : ExceptT Error m AppUnit
  /-- Removes a unit of an application by the unit's name. -/
  removeUnit (model name unit : String) : ExceptT Error m Unit
  /-- Waits, for at most the time given, until every application has one of the statuses. -/
  awaitStatus (model : String) (names statuses : List String) (timeout : Duration) :
    ExceptT Error m Unit
  /-- Waits, for at most the time given, until an application is ready. -/
  awaitReady (model name : String) (timeout : Duration) : ExceptT Error m Unit
  /-- The newest revision of a charm on a channel. -/
  latestRevision (model charm channel : String) : ExceptT Error m Nat
  /-- What a model reports about its applications. -/
  modelStatus (model : String) : ExceptT Error m ModelStatus

/-- The tool that applies infrastructure configurations. -/
structure InfraTool (m : Type → Type) where
  /-- Prepares a configuration's backend. -/
  init (config : String) : ExceptT Error m Unit
  /-- Applies a configuration with inputs; fails with `infraStateLocked` while another writer
  holds the lock of its state. -/
  apply (config : String) (inputs : Record) : ExceptT Error m Unit

/-- The store of the cluster's nodes and records. -/
structure MembershipStore (m : Type → Type) where
  /-- Every node of the cluster. -/
  nodes : ExceptT Error m (List Node)
  /-- The record under a key; fails with `recordNotFound` when there is none. -/
  record (key : String) : ExceptT Error m Record
  /-- Replaces the record under a key. -/
  setRecord (key : String) (record : Record) : ExceptT Error m Unit

/-- Time. -/
structure Clock (m : Type → Type) where
  /-- Lets a span of time pass. -/
  sleep (span : Duration) : m Unit
  now : m Timestamp

/-- One of each collaborator. -/
structure Site (m : Type → Type) where
  controller : Controller m
  infra : InfraTool m
  store : MembershipStore m
  clock : Clock m

namespace MembershipStore

variable [Monad m]

/-- The first node with a name; fails with `nodeNotFound` when there is none. -/
def findNode (store : MembershipStore m) (name : String) : ExceptT Error m Node := do
  match (← store.nodes).find? (·.name = name) with
  | some node => return node
  | none => throw (.nodeNotFound name)

/-- The record under a key; an empty one when there is none. -/
def recordOrEmpty (store : MembershipStore m) (key : String) : ExceptT Error m Record := do
  return (← absentAsNone .recordNotFound (store.record key)).getD .empty

end MembershipStore

end Converge
