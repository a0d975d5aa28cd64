import Converge.Environment
import Converge.Error
import Converge.Settings.Basic
import Converge.Text.Blank
/-!
# Settings from the environment

Three variables win over what a file of settings holds.  They are taken in order, and those in
front of one that is no number stay taken.
-/

namespace Converge.Settings

/-- The variable that names the store's file. -/
def storePathVariable : String := "FLEET_STORE_PATH"

/-- The variable that gives the number of attempts. -/
def maxAttemptsVariable : String := "FLEET_RETRY_MAX_ATTEMPTS"

/-- The variable that gives the seconds between attempts. -/
def pauseVariable : String := "FLEET_RETRY_PAUSE_SECS"

/-- The values of the three variables, as far as they are set. -/
structure Overrides where
  storePath : Option String
  maxAttempts : Option String
  pause : Option String
  deriving DecidableEq

namespace Overrides

/-- The values that a look-up gives. -/
def ofLookup (lookup : String → Option String) : Overrides :=
  ⟨lookup storePathVariable, lookup maxAttemptsVariable, lookup pauseVariable⟩

/-- The values in an environment. -/
def ofEnvironment {m : Type → Type} [Monad m] (environment : Environment m) : m Overrides := do
  return {
    storePath := ← environment.find? storePathVariable
    maxAttempts := ← environment.find? maxAttemptsVariable
    pause := ← environment.find? pauseVariable }

/-- Reads a number below a limit; blanks around it do not count. -/
def readNat (name : String) (limit : Nat) (value : String) : Except Error Nat :=
  match Text.boundedNat? limit (Text.trim value.toList) with
  | some n => .ok n
  | none => .error (.configUnreadable
      (name ++ " must be a non-negative integer, got '" ++ value ++ "'")
      (some "environment"))

/-- Takes the store's path. -/
def takeStorePath (overrides : Overrides) (settings : Settings) : Settings :=
  match overrides.storePath with
  | some path => { settings with store := ⟨some path⟩ }
  | none => settings

/-- Takes the number of attempts. -/
def takeMaxAttempts (overrides : Overrides) (settings : Settings) : Except Error Settings :=
  match overrides.maxAttempts with
  | some value => do
    let n ← readNat maxAttemptsVariable attemptsLimit value
    return { settings with retry := { settings.retry with maxAttempts := n } }
  | none => return settings

/-- Takes the seconds between attempts. -/
def takePause (overrides : Overrides) (settings : Settings) : Except Error Settings :=
  match overrides.pause with
  | some value => do
    let n ← readNat pauseVariable secondsLimit value
    return { settings with retry := { settings.retry with pause := n } }
  | none => return settings

/-- The settings with the values taken, as far as they could be, and the error that stopped it. -/
def apply (overrides : Overrides) (settings : Settings) : Settings × Except Error Unit :=
  let settings := overrides.takeStorePath settings
  match overrides.takeMaxAttempts settings with
  | .error e => (settings, .error e)
  | .ok settings =>
    match overrides.takePause settings with
    | .error e => (settings, .error e)
    | .ok settings => (settings, .ok ())

end Overrides

end Converge.Settings
