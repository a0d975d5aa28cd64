import Converge.Json.Decode
/-!
# What can go wrong

`Error` lists the causes that the engine and its collaborators report.  `Error.message` is the
text an operator sees; what a controller or an infrastructure tool says is passed on unchanged.
`ErrorKind` groups the causes for retry policies.
-/

namespace Converge

/-! ## Kinds -/

/-- A group of causes. -/
inductive ErrorKind where
  | applicationNotFound
  | timeout
  | controllerRequest
  | infraApply
  | infraStateLocked
  | recordNotFound
  | nodeNotFound
  | store
  | plugin
  | config
  | io
  | internal
  deriving DecidableEq

namespace ErrorKind

/-- Every kind. -/
def all : List ErrorKind :=
  [.applicationNotFound, .timeout, .controllerRequest, .infraApply, .infraStateLocked,
    .recordNotFound, .nodeNotFound, .store, .plugin, .config, .io, .internal]

theorem mem_all (kind : ErrorKind) : kind ∈ all := by
  cases kind <;> decide

/-- The written form of a kind. -/
def name : ErrorKind → String
  | .applicationNotFound => "application_not_found"
  | .timeout => "timeout"
  | .controllerRequest => "controller_request"
  | .infraApply => "infra_apply"
  | .infraStateLocked => "infra_state_locked"
  | .recordNotFound => "config_item_not_found"
  | .nodeNotFound => "node_not_found"
  | .store => "store"
  | .plugin => "plugin"
  | .config => "config"
  | .io => "io"
  | .internal => "internal"

/-- Reads a kind by its written form. -/
def decode : Json.Decoder ErrorKind :=
  Json.Decoder.name (all.map fun kind => (kind.name, kind))

end ErrorKind

/-! ## Causes -/

/-- A cause of failure. -/
inductive Error where
  /-- The controller has no such application. -/
  | applicationNotFound (message : String)
  /-- A wait expired. -/
  | timeout (message : String)
  /-- The controller refused or failed a request. -/
  | controllerRequest (message : String)
  /-- The infrastructure tool failed. -/
  | infraApply (message : String)
  /-- Another writer holds the lock of the infrastructure's state. -/
  | infraStateLocked (message : String)
  /-- Nothing is stored under a key. -/
  | recordNotFound (key : String)
  /-- No node of the cluster has this name. -/
  | nodeNotFound (name : String)
  /-- The membership store cannot be read. -/
  | storeCorrupted (message : String)
  /-- The membership store cannot be written. -/
  | storeUnwritable (message : String)
  /-- A stored value has no usable form. -/
  | storeEncoding (message : String)
  /-- A plugin that must be enabled first is not. -/
  | missingRequirement (plugin requirement : String)
  /-- The plan of a plugin failed. -/
  | planFailed (plugin message : String)
  /-- A hook of a plugin failed. -/
  | hookFailed (plugin hook message : String)
  /-- There is no configuration file. -/
  | configNotFound (path : String)
  /-- The configuration cannot be read. -/
  | configUnreadable (message : String) (location : Option String)
  /-- A field of the configuration has a value that is not allowed. -/
  | configInvalid (message : String) (field : Option String)
  /-- Input or output failed. -/
  | io (message : String)
  /-- Anything else. -/
  | internal (message : String)
  deriving DecidableEq

namespace Error

/-- The kind of a cause. -/
def kind : Error → ErrorKind
  | .applicationNotFound _ => .applicationNotFound
  | .timeout _ => .timeout
  | .controllerRequest _ => .controllerRequest
  | .infraApply _ => .infraApply
  | .infraStateLocked _ => .infraStateLocked
  | .recordNotFound _ => .recordNotFound
  | .nodeNotFound _ => .nodeNotFound
  | .storeCorrupted _ | .storeUnwritable _ | .storeEncoding _ => .store
  | .missingRequirement .. | .planFailed .. | .hookFailed .. => .plugin
  | .configNotFound _ | .configUnreadable .. | .configInvalid .. => .config
  | .io _ => .io
  | .internal _ => .internal

/-- The text that an operator sees. -/
def message : Error → String
  | .applicationNotFound message => message
  | .timeout message => message
  | .controllerRequest message => message
  | .infraApply message => message
  | .infraStateLocked message => message
  | .recordNotFound key => "ConfigItem not found: " ++ key
  | .nodeNotFound name => "Node " ++ name ++ " not found"
  | .storeCorrupted message => "Membership store is corrupted: " ++ message
  | .storeUnwritable message => "Failed to write membership store: " ++ message
  | .storeEncoding message => "Membership store serialization error: " ++ message
  | .missingRequirement plugin requirement =>
    "Plugin error: Plugin " ++ plugin ++ " requires plugin " ++ requirement ++ " to be enabled"
  | .planFailed _ message => "Plugin error: " ++ message
  | .hookFailed plugin hook message =>
    "Plugin error: Plugin " ++ plugin ++ " hook " ++ hook ++ " failed: " ++ message
  | .configNotFound path => "Configuration error: Configuration file not found: " ++ path
  | .configUnreadable message _ =>
    "Configuration error: Failed to parse configuration: " ++ message
  | .configInvalid message _ =>
    "Configuration error: Configuration validation failed: " ++ message
  | .io message => "IO error: " ++ message
  | .internal message => "Internal error: " ++ message

end Error

/-! ## Absence as a value -/

/-- Runs an action that may report something as absent: an error of the given kind is `none`, any
other error is passed on. -/
def absentAsNone {m : Type → Type} [Monad m] {α : Type} (kind : ErrorKind)
    (action : ExceptT Error m α) : ExceptT Error m (Option α) :=
  tryCatch (some <$> action) fun e => if e.kind = kind then pure none else throw e

end Converge
