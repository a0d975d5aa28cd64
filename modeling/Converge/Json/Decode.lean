import Converge.Json.Reader
/-!
# Reading typed values

A decoder takes the content of a text for a value of some type, given how many more levels of
nesting it may descend; a whole text may be nested by `maxDepth`.  What a structure's decoder does
not ask for is passed over unread.  Main definitions: `Fields.ofTree?`, which reads a structure
from an object or from an array, and `decode?`, which reads a whole text.
-/

namespace Converge.Json

/-- How deep the values that are read may be nested. -/
def maxDepth : Nat := 127

/-- Reads a value from a text's content, descending by at most the levels given. -/
abbrev Decoder (α : Type) := Nat → Tree → Option α

/-- Reads a whole text as a value. -/
def decode? {α : Type} (decoder : Decoder α) (text : String) : Option α :=
  (Tree.ofText? text).bind (decoder maxDepth)

namespace Decoder

variable {α : Type}

/-- A string. -/
def text : Decoder String
  | _, .str text => text
  | _, _ => none

/-- A truth value. -/
def flag : Decoder Bool
  | _, .bool b => some b
  | _, _ => none

/-- An integer from zero up to below `limit`. -/
def natBelow (limit : Nat) : Decoder Nat
  | _, .number literal =>
    match literal.number? with
    | some (.int n) => if 0 ≤ n && n < limit then some n.toNat else none
    | _ => none
  | _, _ => none

/-- A value, or null for its absence. -/
def optional (decoder : Decoder α) : Decoder (Option α)
  | _, .null => some none
  | levels, tree => (decoder levels tree).map some

/-- An array. -/
def list (decoder : Decoder α) : Decoder (List α)
  | levels + 1, .arr items => items.mapM (decoder levels)
  | _, _ => none

/-- An object with keys of any name; of several fields with one key the last counts. -/
def dict (decoder : Decoder α) : Decoder (Dict α)
  | levels + 1, .obj fields =>
    (fields.mapM (readField? levels)).map Dict.ofList
  | _, _ => none
where
  /-- A field with its key, if the key has a content. -/
  readField? (levels : Nat) (field : Option String × Tree) : Option (String × α) := do
    return (← field.1, ← decoder levels field.2)

/-- A free-form value. -/
def value : Decoder Json :=
  fun levels tree => tree.value? levels

/-- A free-form object. -/
def record : Decoder Record :=
  dict value

/-- One of several names, as a string or as an object whose one field has this name and no
value. -/
def name (names : List (String × α)) : Decoder α
  | _, .str (some text) => names.lookup text
  | _ + 1, .obj [(some text, .null)] => names.lookup text
  | _, _ => none

end Decoder

/-! ## Structures -/

/-- The fields of a structure by name, and the levels that their values may descend. -/
structure Fields where
  levels : Nat
  slot : String → Option Tree

namespace Fields

variable {α : Type}

/-- The fields of a structure that has these names.  In an object none of the names may occur
twice and other keys are passed over; an array holds the fields in the order of the names, and may
end early but not late. -/
def ofTree? (names : List String) : Nat → Tree → Option Fields
  | levels + 1, .obj fields =>
    let keys := fields.map (·.1)
    if keys.all Option.isSome && names.all fun name => keys.count (some name) ≤ 1 then
      some ⟨levels, fun name => fields.lookup (some name)⟩
    else none
  | levels + 1, .arr items =>
    if items.length ≤ names.length then
      some ⟨levels, fun name => (names.idxOf? name).bind (items[·]?)⟩
    else none
  | _, _ => none

/-- A field that must be there. -/
def required (fields : Fields) (name : String) (decoder : Decoder α) : Option α :=
  (fields.slot name).bind (decoder fields.levels)

/-- A field that has a value when it is left out. -/
def withDefault (fields : Fields) (name : String) (decoder : Decoder α) (default : α) :
    Option α :=
  match fields.slot name with
  | some tree => decoder fields.levels tree
  | none => some default

end Fields

end Converge.Json
