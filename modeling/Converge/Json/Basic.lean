import Converge.Dict
import Converge.Double
/-!
# JSON values

A value holds the fields of an object in the order in which they are written.  Free-form values
that come from a text have their fields in ascending order of the keys and each key once
(`Json.Tree.value?`); what a type of this library writes has them in the type's order.
-/

namespace Converge

/-- A JSON value. -/
inductive Json where
  | null
  | bool (value : Bool)
  /-- An integer from `-2 ^ 63` to `2 ^ 64 - 1`. -/
  | int (value : Int)
  /-- Any other number. -/
  | real (value : Double)
  | str (text : String)
  | arr (items : List Json)
  | obj (fields : List (String × Json))

/-- An object with free-form fields: a configuration document, or the inputs of an apply. -/
abbrev Record := Dict Json

namespace Json

instance : Inhabited Json := ⟨.null⟩

/-- The value of a record. -/
def ofRecord (record : Record) : Json :=
  .obj record.entries

/-- The record that an object holds. -/
def record? : Json → Option Record
  | .obj fields => some (Dict.ofList fields)
  | _ => none

/-- The text of a string. -/
def string? : Json → Option String
  | .str text => some text
  | _ => none

/-- The items of an array. -/
def items? : Json → Option (List Json)
  | .arr items => some items
  | _ => none

/-- A list of texts. -/
def ofStrings (texts : List String) : Json :=
  .arr (texts.map .str)

/-- A text that may be absent. -/
def ofString? : Option String → Json
  | some text => .str text
  | none => .null

/-- How many arrays and objects enclose the innermost value. -/
def depth : Json → Nat
  | .arr items => 1 + itemsDepth items
  | .obj fields => 1 + fieldsDepth fields
  | _ => 0
where
  /-- The depth of the deepest item. -/
  itemsDepth : List Json → Nat
    | [] => 0
    | item :: rest => max item.depth (itemsDepth rest)
  /-- The depth of the deepest field. -/
  fieldsDepth : List (String × Json) → Nat
    | [] => 0
    | (_, value) :: rest => max value.depth (fieldsDepth rest)

end Json

end Converge
