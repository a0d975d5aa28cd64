import Converge.DotEnv.Lines
import Converge.Text.Alphanumeric
import Converge.Text.Digits
/-!
# Assignments of environment files

A line `key=value` sets a variable.  The value may be quoted, and `$name` in it stands for the
value of another variable.  `DotEnv.Assignment.read` reads a line, and `DotEnv.parse` a text.
-/

namespace Converge.DotEnv

/-! ## Values -/

/-- A part of a value. -/
inductive Part where
  | char (c : Char)
  /-- What the variable with a name stands for. -/
  | reference (name : List Char)
  deriving DecidableEq

/-- Where reading is within a value. -/
inductive ValueState where
  | plain
  | single
  | double
  /-- Behind a backslash, within double quotes or not. -/
  | escape (inDouble : Bool)
  /-- Within the name of a variable, of which the last character comes first. -/
  | name (inDouble : Bool) (name : List Char)
  /-- Within a name in braces. -/
  | braced (inDouble : Bool) (name : List Char)
  /-- Behind the value. -/
  | done

/-- The state within double quotes or outside of them. -/
def ValueState.text (inDouble : Bool) : ValueState :=
  if inDouble then .double else .plain

/-- Reads a value from a state on; `none` if it breaks the rules. -/
def readValue : ValueState → List Char → Option (List Part)
  | .single, [] | .double, [] | .braced .., [] => none
  | .name true _, [] => none
  | .name false name, [] => some [.reference name.reverse]
  | .escape true, [] => none
  | .plain, [] | .escape false, [] | .done, [] => some []
  | .done, c :: rest =>
    if c = ' ' || c = '\t' then readValue .done rest
    else if c = '#' then some []
    else none
  | .escape inDouble, c :: rest =>
    if ['\\', '\'', '"', '$', ' '].contains c then emit c (.text inDouble) rest
    else if c = 'n' then emit '\n' (.text inDouble) rest
    else none
  | .single, c :: rest =>
    if c = '\'' then readValue .plain rest else emit c .single rest
  | .name inDouble name, c :: rest =>
    if Text.isAlphanumeric c then readValue (.name inDouble (c :: name)) rest
    else if c = '\x7b' && name.isEmpty then readValue (.braced inDouble []) rest
    else if c = '$' then
      (readValue (.name inDouble []) rest).map (.reference name.reverse :: ·)
    else
      (readValue (.text inDouble) rest).map fun parts => .reference name.reverse :: .char c :: parts
  | .braced inDouble name, c :: rest =>
    if c = '\x7d' then (readValue (.text inDouble) rest).map (.reference name.reverse :: ·)
    else readValue (.braced inDouble (c :: name)) rest
  | .double, c :: rest =>
    if c = '$' then readValue (.name true []) rest
    else if c = '"' then readValue .plain rest
    else if c = '\\' then readValue (.escape true) rest
    else emit c .double rest
  | .plain, c :: rest =>
    if c = '$' then readValue (.name false []) rest
    else if c = '\'' then readValue .single rest
    else if c = '"' then readValue .double rest
    else if c = '\\' then readValue (.escape false) rest
    else if c = ' ' || c = '\t' then readValue .done rest
    else emit c .plain rest
where
  /-- A character of the value, and what follows it. -/
  emit (c : Char) (state : ValueState) (rest : List Char) : Option (List Part) :=
    (readValue state rest).map (.char c :: ·)

/-! ## Lines -/

/-- The setting of a variable. -/
structure Assignment where
  key : String
  value : List Part
  deriving DecidableEq

/-- Reads a key: a letter or an underscore, then letters, digits, underscores and points. -/
def readKey (line : List Char) : Option (List Char × List Char) :=
  match line with
  | [] => none
  | c :: _ =>
    if c.isAlpha || c = '_' then
      let key := line.takeWhile fun c => c.isAlphanum || c = '_' || c = '.'
      some (key, line.drop key.length)
    else none

/-- Passes over an equals sign behind blanks. -/
def readEquals (line : List Char) : Option (List Char) :=
  match Text.trimStart line with
  | '=' :: rest => some rest
  | _ => none

/-- Reads a key with its equals sign.  The word `export` may stand in front of a key, and it may
be a key itself. -/
def readTarget (line : List Char) : Option (List Char × List Char) := do
  let (key, rest) ← readKey line
  match readEquals rest with
  | some rest => return (key, rest)
  | none =>
    if key = "export".toList then
      let (key, rest) ← readKey (Text.trimStart rest)
      return (key, ← readEquals rest)
    else none

/-- What a line sets, if anything: an empty line and a comment set nothing.  The result is `none`
if the line breaks the rules. -/
def Assignment.read (line : List Char) : Option (Option Assignment) := do
  let line := Text.trim line
  if line.isEmpty || line.head? = some '#' then return none
  let (key, rest) ← readTarget line
  let rest := Text.trimStart rest
  let value ←
    if rest.isEmpty || rest.head? = some '#' then some [] else readValue .plain rest
  return some ⟨String.ofList key, value⟩

/-- The assignments of lines up to the first that breaks the rules, and whether none does. -/
def readLines : List (List Char) → List Assignment × Bool
  | [] => ([], true)
  | line :: rest =>
    match Assignment.read line with
    | none => ([], false)
    | some found =>
      let (others, ok) := readLines rest
      (found.toList ++ others, ok)

/-- The assignments of a text up to the first line that breaks the rules, and whether none does.
A mark of byte order in front counts for nothing. -/
def parse (text : String) : List Assignment × Bool :=
  let s := match text.toList with
    | '\uFEFF' :: rest => rest
    | s => s
  let (lines, complete) := logicalLines s
  let (assignments, ok) := readLines lines
  (assignments, ok && complete)

end Converge.DotEnv
