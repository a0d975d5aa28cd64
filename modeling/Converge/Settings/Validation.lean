import Converge.Error
import Converge.Settings.Basic
/-!
# Validating settings

Rules that settings have to keep, and one that they had better keep.  The first rule that is
broken is the error that is reported.
-/

namespace Converge.Settings

/-- A rule that is broken. -/
structure Violation where
  /-- The setting, with its section. -/
  field : String
  message : String
  deriving DecidableEq

/-- The violation in one line. -/
def Violation.text (violation : Violation) : String :=
  violation.field ++ ": " ++ violation.message

/-- What validation has found. -/
structure Validation where
  errors : List Violation
  warnings : List String
  deriving DecidableEq

/-- Whether no rule is broken. -/
def Validation.isValid (validation : Validation) : Bool :=
  validation.errors.isEmpty

/-- Longer pauses than this number of seconds deserve a warning. -/
def longestPause : Nat := 600

/-- A rule that is broken unless a condition holds. -/
def unlessHolds (condition : Bool) (field message : String) : List Violation :=
  if condition then [] else [⟨field, message⟩]

/-- A wait of at least a second. -/
def validateTimeout (field : String) (seconds : Nat) : List Violation :=
  unlessHolds (seconds ≠ 0) field (field ++ " must be greater than zero")

/-- All the rules in order. -/
def validate (settings : Settings) : Validation where
  errors :=
    unlessHolds (settings.store.path ≠ some "") "store.path" "Store path cannot be empty" ++
    validateTimeout "timeouts.deploy_secs" settings.timeouts.deploy ++
    validateTimeout "timeouts.unit_secs" settings.timeouts.unit ++
    validateTimeout "timeouts.upgrade_secs" settings.timeouts.upgrade ++
    unlessHolds (settings.retry.maxAttempts ≠ 0) "retry.max_attempts"
      "retry.max_attempts must be at least 1"
  warnings :=
    if settings.retry.pause > longestPause then
      ["retry.pause_secs is " ++ String.ofList (Text.decimal settings.retry.pause) ++
        "s; applies may stall for a long time on a held lock"]
    else []

/-- What validation finds, if no rule is broken. -/
def check (settings : Settings) : Except Error Validation :=
  let validation := settings.validate
  match validation.errors with
  | [] => .ok validation
  | first :: _ => .error (.configInvalid first.message (some first.field))

end Converge.Settings
