import Converge.Settings.Basic
import Converge.Text.Blank
import Converge.Yaml.Node
/-!
# Settings in a file

A file of settings is a YAML document of one mapping.  A section or a value that is left out has
its default, and so has everything in a file of blanks.  Main definition: `Settings.ofText?`.
-/

namespace Converge.Settings

/-! ## Scalars -/

/-- A number that digits and a base denote. -/
def natOfDigits? (base limit : Nat) (digits : List Char) : Option Nat :=
  (Text.natOfDigits? base digits).filter (· < limit)

/-- Whether a text has digits only, of which the first of several is a zero. -/
def hasLeadingZero : List Char → Bool
  | '0' :: c :: rest => (c :: rest).all Text.isDigit
  | _ => false

/-- A number below a limit: decimal digits without a leading zero, or digits behind `0x`, `0o` or
`0b`, with or without a plus sign. -/
def readNat? (limit : Nat) (s : List Char) : Option Nat :=
  let digits := match s with
    | '+' :: rest => rest
    | _ => s
  match digits with
  | '0' :: 'x' :: rest => natOfDigits? 16 limit rest
  | '0' :: 'o' :: rest => natOfDigits? 8 limit rest
  | '0' :: 'b' :: rest => natOfDigits? 2 limit rest
  | _ => if hasLeadingZero digits then none else natOfDigits? 10 limit digits

/-- A text that stands for nothing. -/
def isNull (s : List Char) : Bool :=
  ["null", "Null", "NULL", "~"].any fun text => text.toList = s

/-- The tags of the types that are looked for. -/
def intTag : List Char := "tag:yaml.org,2002:int".toList

@[inherit_doc intTag] def nullTag : List Char := "tag:yaml.org,2002:null".toList

/-- A number below a limit from a node: a plain scalar, or a literal one that is tagged. -/
def natOfNode? (limit : Nat) : Yaml.Node → Option Nat
  | .scalar _ tag text style =>
    if style = .plain || (style = .literal && tag = some intTag) then readNat? limit text
    else none
  | _ => none

/-- A text or nothing from a node.  Any scalar is a text, save a plain one that stands for nothing
and has no tag, or the one that says so. -/
def textOfNode? : Yaml.Node → Option (Option String)
  | .scalar _ tag text style =>
    if style = .plain && tag = some nullTag then
      if isNull text then some none else none
    else if style = .plain && tag.isNone && (text.isEmpty || isNull text) then some none
    else some (some (String.ofList text))
  | _ => none

/-! ## Sections -/

/-- The fields of a mapping by name, none of the names given twice; other keys are passed over, as
long as they are scalars.  A plain scalar without text has no fields. -/
def fieldsOfNode? (doc : Yaml.Document) (names : List String) (node : Yaml.Node) :
    Option (List (String × Yaml.Node)) :=
  match doc.resolve node with
  | .scalar _ _ [] .plain => some []
  | .mapping _ pairs => do
    let fields ← pairs.mapM fun (key, value) =>
      match doc.resolve key with
      | .scalar _ _ text _ => some (String.ofList text, doc.resolve value)
      | _ => none
    if names.all fun name => (fields.map (·.1)).count name ≤ 1 then some fields else none
  | _ => none

/-- The value of a field, or a default. -/
def fieldOr {α : Type} (fields : List (String × Yaml.Node)) (name : String) (default : α)
    (read : Yaml.Node → Option α) : Option α :=
  match fields.lookup name with
  | some node => read node
  | none => some default

/-- Reads where the store is. -/
def Store.ofNode? (doc : Yaml.Document) (node : Yaml.Node) : Option Store := do
  let fields ← fieldsOfNode? doc ["path"] node
  return ⟨← fieldOr fields "path" none textOfNode?⟩

/-- Reads the waits. -/
def Timeouts.ofNode? (doc : Yaml.Document) (node : Yaml.Node) : Option Timeouts := do
  let fields ← fieldsOfNode? doc ["deploy_secs", "unit_secs", "upgrade_secs"] node
  let seconds (name : String) : Option Nat :=
    fieldOr fields name defaultTimeout (natOfNode? secondsLimit)
  return ⟨← seconds "deploy_secs", ← seconds "unit_secs", ← seconds "upgrade_secs"⟩

/-- Reads how to retry. -/
def Retry.ofNode? (doc : Yaml.Document) (node : Yaml.Node) : Option Retry := do
  let fields ← fieldsOfNode? doc ["max_attempts", "pause_secs"] node
  return {
    maxAttempts := ← fieldOr fields "max_attempts" Retry.standard.maxAttempts
      (natOfNode? attemptsLimit)
    pause := ← fieldOr fields "pause_secs" Retry.standard.pause (natOfNode? secondsLimit) }

/-- Reads the settings of a document. -/
def ofDocument? (doc : Yaml.Document) : Option Settings := do
  let fields ← fieldsOfNode? doc ["store", "timeouts", "retry"] doc.root
  return {
    store := ← fieldOr fields "store" .standard (Store.ofNode? doc)
    timeouts := ← fieldOr fields "timeouts" .standard (Timeouts.ofNode? doc)
    retry := ← fieldOr fields "retry" .standard (Retry.ofNode? doc) }

/-- Reads the settings of a text. -/
def ofText? (text : String) : Option Settings :=
  if text.toList.all Text.isBlank then some standard
  else (Yaml.Document.ofText? text).bind ofDocument?

end Converge.Settings
