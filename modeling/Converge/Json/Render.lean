import Converge.Json.Basic
/-!
# The text of a JSON value

One printer with two styles: `compact` has no white space, `pretty` puts every item and field on a
line of its own and indents by two blanks for each level.  Empty arrays and objects are written on
one line in both.
-/

namespace Converge.Json

/-! ## Strings -/

/-- The lower-case hexadecimal digit of a number below sixteen. -/
def hexDigit (n : Nat) : Char :=
  if n < 10 then Char.ofNat (48 + n) else Char.ofNat (87 + n)

/-- A character inside quotes: quotes, backslashes and control characters are escaped, by their
short form if there is one. -/
def escape (c : Char) : List Char :=
  if c = '"' then ['\\', '"']
  else if c = '\\' then ['\\', '\\']
  else if c = '\n' then ['\\', 'n']
  else if c = '\r' then ['\\', 'r']
  else if c = '\t' then ['\\', 't']
  else if c = '\x08' then ['\\', 'b']
  else if c = '\x0c' then ['\\', 'f']
  else if c.toNat < 32 then
    ['\\', 'u', '0', '0', hexDigit (c.toNat / 16), hexDigit (c.toNat % 16)]
  else [c]

/-- A string literal. -/
def quote (text : String) : List Char :=
  '"' :: text.toList.flatMap escape ++ ['"']

/-! ## Numbers -/

/-- The digits of an integer with its sign. -/
def integerText (n : Int) : List Char :=
  if n < 0 then '-' :: Text.decimal n.natAbs else Text.decimal n.natAbs

/-! ## Values -/

/-- Where a printed value breaks its lines. -/
structure Style where
  /-- What stands before an item or a closing bracket at a level. -/
  lineBreak : Nat → List Char
  /-- What stands between a colon and the value. -/
  afterColon : List Char

/-- No white space at all. -/
def Style.compact : Style :=
  ⟨fun _ => [], []⟩

/-- A line for every item, indented by two blanks for each level. -/
def Style.pretty : Style :=
  ⟨fun level => '\n' :: List.replicate (2 * level) ' ', [' ']⟩

/-- The text of a value that stands at a level of nesting. -/
def render (style : Style) (level : Nat) : Json → List Char
  | .null => ['n', 'u', 'l', 'l']
  | .bool true => ['t', 'r', 'u', 'e']
  | .bool false => ['f', 'a', 'l', 's', 'e']
  | .int n => integerText n
  | .real x => x.text
  | .str text => quote text
  | .arr [] => ['[', ']']
  | .arr items => '[' :: renderItems style (level + 1) items ++ style.lineBreak level ++ [']']
  | .obj [] => ['{', '}']
  | .obj fields => '{' :: renderFields style (level + 1) fields ++ style.lineBreak level ++ ['}']
where
  /-- Items at a level, with commas between them. -/
  renderItems (style : Style) (level : Nat) : List Json → List Char
    | [] => []
    | [item] => style.lineBreak level ++ render style level item
    | item :: rest =>
      style.lineBreak level ++ render style level item ++ ',' :: renderItems style level rest
  /-- Fields at a level, with commas between them. -/
  renderFields (style : Style) (level : Nat) : List (String × Json) → List Char
    | [] => []
    | [(key, value)] =>
      style.lineBreak level ++ quote key ++ ':' :: style.afterColon ++ render style level value
    | (key, value) :: rest =>
      style.lineBreak level ++ quote key ++ ':' :: style.afterColon ++ render style level value ++
        ',' :: renderFields style level rest

/-- The text without white space. -/
def compact (value : Json) : String :=
  String.ofList (render .compact 0 value)

/-- The text over several lines. -/
def pretty (value : Json) : String :=
  String.ofList (render .pretty 0 value)

end Converge.Json
