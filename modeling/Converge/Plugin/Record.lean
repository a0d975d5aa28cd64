import Converge.Error
import Converge.Json.Render
import Converge.Timestamp
/-!
# Plugin records

The state of a plugin is a record of the membership store: whether the plugin is enabled, which
version changed it last and when, and whatever keys the plugin itself has put there, which are
kept.  A record that is not there means a plugin that is not enabled.  `Plugin.State.ofRecord`
reads a record, and `Plugin.State.mergeInto` writes the state over one.
-/

namespace Converge.Plugin

/-- The key under which a plugin's record is stored. -/
def key (name : String) : String :=
  "Plugin-" ++ name

/-- The state of a plugin. -/
structure State where
  enabled : Bool
  /-- The version of the plugin that changed the record last. -/
  version : Option String
  updatedAt : Option Timestamp
  /-- The plugin's own keys. -/
  extra : Record

/-- Why a record is no plugin's state. -/
inductive RecordError where
  /-- The flag is neither a truth value nor a text. -/
  | enabledFlag (value : Json)
  /-- The time is neither a point in time nor null. -/
  | updatedAt
  /-- The version is neither a text nor null. -/
  | version

/-- The text of a reason. -/
def RecordError.message : RecordError → String
  | .enabledFlag value => "invalid enabled flag: " ++ value.compact
  | .updatedAt => "updated_at is not a point in time"
  | .version => "version is not a text"

namespace State

/-- The keys that the state itself takes. -/
def ownKeys : List String :=
  ["enabled", "version", "updated_at"]

/-! ## Reading -/

/-- Reads the flag: a truth value, or a text, of which `true` in any case means enabled.  Null and
a missing flag mean that the plugin is not enabled. -/
def readEnabled : Option Json → Except RecordError Bool
  | none | some .null => .ok false
  | some (.bool enabled) => .ok enabled
  | some (.str text) => .ok (text.toList.map Char.toLower = ['t', 'r', 'u', 'e'])
  | some value => .error (.enabledFlag value)

/-- Reads the time. -/
def readUpdatedAt : Option Json → Except RecordError (Option Timestamp)
  | none | some .null => .ok none
  | some (.str text) =>
    match Timestamp.read? text with
    | some time => .ok (some time)
    | none => .error .updatedAt
  | some _ => .error .updatedAt

/-- Reads the version. -/
def readVersion : Option Json → Except RecordError (Option String)
  | none | some .null => .ok none
  | some (.str text) => .ok (some text)
  | some _ => .error .version

/-- The state that a record holds, or why it holds none. -/
def read (record : Record) : Except RecordError State := do
  let enabled ← readEnabled (record.find? "enabled")
  let updatedAt ← readUpdatedAt (record.find? "updated_at")
  let version ← readVersion (record.find? "version")
  return { enabled, version, updatedAt, extra := ownKeys.foldl Dict.erase record }

/-- The state that a stored record holds. -/
def ofRecord (record : Record) : Except Error State :=
  (read record).mapError fun e => .storeEncoding ("Invalid plugin record: " ++ e.message)

/-- Reads the state from a text's content, in which no own key may occur twice. -/
def decode : Json.Decoder State := fun levels tree => do
  match tree with
  | .obj fields =>
    if ownKeys.all fun name => (fields.map (·.1)).count (some name) ≤ 1 then
      (read (← Json.Decoder.record levels tree)).toOption
    else none
  | _ => none

/-! ## Writing -/

/-- The fields of the written form, without what is absent. -/
def toFields (state : State) : List (String × Json) :=
  [("enabled", .bool state.enabled)] ++
    (state.version.map fun version => ("version", .str version)).toList ++
    (state.updatedAt.map fun time => ("updated_at", .str time.writeZulu)).toList ++
    state.extra.entries

/-- The written form. -/
def toJson (state : State) : Json :=
  .obj state.toFields

/-- Writes the flag, and the version and the time that are known, over a record. -/
def mergeInto (state : State) (record : Record) : Record :=
  let record := record.insert "enabled" (.bool state.enabled)
  let record := match state.version with
    | some version => record.insert "version" (.str version)
    | none => record
  match state.updatedAt with
  | some time => record.insert "updated_at" (.str time.write)
  | none => record

end State

end Converge.Plugin
