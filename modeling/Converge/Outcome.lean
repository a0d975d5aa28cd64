import Converge.Error
/-!
# Outcomes

What a check or a run of a step ends with: a status, a message that explains it, and data for the
caller.  `Outcome.completed`, `completedWith`, `skipped` and `failed` build one; `Outcome.decode`
reads one and `Outcome.toJson` writes it.
-/

namespace Converge

/-- How a check or a run ended. -/
inductive Status where
  /-- A check found work to do, or a run finished. -/
  | completed
  | failed
  /-- The desired state is already there. -/
  | skipped
  deriving DecidableEq

namespace Status

/-- Every status. -/
def all : List Status :=
  [.completed, .failed, .skipped]

/-- The written form of a status. -/
def name : Status → String
  | .completed => "COMPLETED"
  | .failed => "FAILED"
  | .skipped => "SKIPPED"

/-- Reads a status by its written form. -/
def decode : Json.Decoder Status :=
  Json.Decoder.name (all.map fun status => (status.name, status))

end Status

/-- The end of a check or a run. -/
structure Outcome where
  status : Status
  message : Option String
  payload : Option Json

namespace Outcome

/-- Completed, with nothing to say. -/
def completed : Outcome :=
  ⟨.completed, none, none⟩

/-- Completed, with data for the caller. -/
def completedWith (payload : Json) : Outcome :=
  ⟨.completed, none, some payload⟩

/-- Skipped, with the reason why nothing needs doing. -/
def skipped (message : String) : Outcome :=
  ⟨.skipped, some message, none⟩

/-- Failed, with the reason. -/
def failed (message : String) : Outcome :=
  ⟨.failed, some message, none⟩

instance : Inhabited Outcome := ⟨completed⟩

/-- Whether the status is completed. -/
def isCompleted (outcome : Outcome) : Bool :=
  outcome.status = .completed

/-- Whether the status is failed. -/
def isFailed (outcome : Outcome) : Bool :=
  outcome.status = .failed

/-- Whether the status is skipped. -/
def isSkipped (outcome : Outcome) : Bool :=
  outcome.status = .skipped

/-- The outcome in one line. -/
def text (outcome : Outcome) : String :=
  match outcome.message with
  | some message => outcome.status.name ++ ": " ++ message
  | none => outcome.status.name

/-- The written form, without what is absent. -/
def toJson (outcome : Outcome) : Json :=
  .obj <|
    [("result_type", .str outcome.status.name)] ++
    (outcome.message.map fun message => ("message", .str message)).toList ++
    (outcome.payload.map fun payload => ("payload", payload)).toList

/-- Reads the written form; a null is absent. -/
def decode : Json.Decoder Outcome := fun levels tree => do
  let fields ← Json.Fields.ofTree? ["result_type", "message", "payload"] levels tree
  return {
    status := ← fields.required "result_type" Status.decode
    message := ← fields.withDefault "message" (.optional .text) none
    payload := ← fields.withDefault "payload" (.optional .value) none }

/-- The outcome of an action that may fail: an error's message becomes the message of a failure. -/
def settle {m : Type → Type} [Monad m] (action : ExceptT Error m Outcome) : m Outcome := do
  match ← action.run with
  | .ok outcome => return outcome
  | .error e => return .failed e.message

end Outcome

end Converge
