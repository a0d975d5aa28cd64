import Converge.Disk.Path
import Converge.Json.Decode
import Converge.Retry
/-!
# Settings

What an operator may set: where the membership store is, how long to wait for a fleet to settle,
and how often to retry.  Everything has a default.
-/

namespace Converge

namespace Settings

/-- Where the membership store is. -/
structure Store where
  /-- The path of the store's file; `none` for the usual place. -/
  path : Option String
  deriving DecidableEq

/-- Seconds to wait for a fleet to settle. -/
structure Timeouts where
  /-- After deploying an application. -/
  deploy : Nat
  /-- After adding or removing a unit. -/
  unit : Nat
  /-- After refreshing applications. -/
  upgrade : Nat
  deriving DecidableEq

/-- How to retry. -/
structure Retry where
  maxAttempts : Nat
  /-- Seconds between attempts. -/
  pause : Nat
  deriving DecidableEq

/-- Seconds to wait unless it is said otherwise. -/
def defaultTimeout : Nat := 1200

/-- The usual place of the store. -/
def Store.standard : Store := ⟨none⟩

/-- The waits unless it is said otherwise. -/
def Timeouts.standard : Timeouts := ⟨defaultTimeout, defaultTimeout, defaultTimeout⟩

/-- Retrying unless it is said otherwise. -/
def Retry.standard : Retry := ⟨RetryPolicy.defaultMaxAttempts, RetryPolicy.defaultPause.seconds⟩

end Settings

/-- What an operator may set. -/
structure Settings where
  store : Settings.Store
  timeouts : Settings.Timeouts
  retry : Settings.Retry
  deriving DecidableEq

namespace Settings

/-- The settings unless it is said otherwise. -/
def standard : Settings :=
  ⟨.standard, .standard, .standard⟩

instance : Inhabited Settings := ⟨standard⟩

/-- Seconds are below this number. -/
def secondsLimit : Nat := Text.wordLimit

/-- Numbers of attempts are below this number. -/
def attemptsLimit : Nat := Nat.pow 2 32

/-- The policy for an apply: another attempt only while the state is locked. -/
def Retry.policy (retry : Retry) : RetryPolicy :=
  .stateLock retry.maxAttempts (.ofSeconds retry.pause)

/-! ## The store's path -/

/-- Where data is kept: the directory named for it, if its path is absolute, else a place below
the home directory, for which an empty name does not count, else the working directory. -/
def dataDirectory (dataHome home accountHome : Option String) : String :=
  match dataHome.filter Path.isAbsolute with
  | some directory => directory
  | none =>
    match (home.filter (!·.isEmpty)) <|> accountHome with
    | some home => Path.join home ".local/share"
    | none => "."

/-- The path of the store's file, with data kept in a directory. -/
def Store.resolvedPath (store : Store) (dataDirectory : String) : String :=
  store.path.getD (Path.join (Path.join dataDirectory "fleet") "cluster.json")

/-! ## The written form -/

/-- The settings as a JSON value. -/
def toJson (settings : Settings) : Json :=
  .obj [
    ("store", .obj [("path", .ofString? settings.store.path)]),
    ("timeouts", .obj [
      ("deploy_secs", .int settings.timeouts.deploy),
      ("unit_secs", .int settings.timeouts.unit),
      ("upgrade_secs", .int settings.timeouts.upgrade)]),
    ("retry", .obj [
      ("max_attempts", .int settings.retry.maxAttempts),
      ("pause_secs", .int settings.retry.pause)])]

/-- Reads where the store is. -/
def Store.decode : Json.Decoder Store := fun levels tree => do
  let fields ← Json.Fields.ofTree? ["path"] levels tree
  return ⟨← fields.withDefault "path" (.optional .text) none⟩

/-- Reads the waits. -/
def Timeouts.decode : Json.Decoder Timeouts := fun levels tree => do
  let fields ← Json.Fields.ofTree? ["deploy_secs", "unit_secs", "upgrade_secs"] levels tree
  let seconds (name : String) : Option Nat :=
    fields.withDefault name (.natBelow secondsLimit) defaultTimeout
  return ⟨← seconds "deploy_secs", ← seconds "unit_secs", ← seconds "upgrade_secs"⟩

/-- Reads how to retry. -/
def Retry.decode : Json.Decoder Retry := fun levels tree => do
  let fields ← Json.Fields.ofTree? ["max_attempts", "pause_secs"] levels tree
  return {
    maxAttempts := ← fields.withDefault "max_attempts" (.natBelow attemptsLimit)
      Retry.standard.maxAttempts
    pause := ← fields.withDefault "pause_secs" (.natBelow secondsLimit) Retry.standard.pause }

/-- Reads the written form; what is left out has its default. -/
def decode : Json.Decoder Settings := fun levels tree => do
  let fields ← Json.Fields.ofTree? ["store", "timeouts", "retry"] levels tree
  return {
    store := ← fields.withDefault "store" Store.decode .standard
    timeouts := ← fields.withDefault "timeouts" Timeouts.decode .standard
    retry := ← fields.withDefault "retry" Retry.decode .standard }

end Settings

end Converge
