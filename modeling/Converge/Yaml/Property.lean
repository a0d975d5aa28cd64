import Converge.Text.Digits
import Converge.Yaml.Token
import Converge.Yaml.Cursor
/-!
# Anchors, tags and directives

Reading the pieces of a YAML text that say something about a node or about the whole document.
-/

namespace Converge.Yaml

/-! ## Anchors and aliases -/

/-- Reads the name of an anchor or an alias from behind its sign. -/
def readAnchorName (cursor : Cursor) : Option (List Char × Cursor) :=
  let (name, cursor) := cursor.takeWhile isWordChar
  let ends := startsBlank cursor.rest ||
    cursor.rest.head?.any fun c =>
      c = '?' || c = ':' || c = ',' || c = ']' || c = '\x7d' || c = '%' || c = '@' || c = '\x60'
  if name.isEmpty || !ends then none else some (name, cursor)

/-! ## Tags -/

/-- A character that may stand in a tag. -/
def isTagChar (verbatim : Bool) (c : Char) : Bool :=
  isWordChar c || [';', '/', '?', ':', '@', '&', '=', '+', '$', '.', '%', '!', '~', '*', '\'', '(',
    ')'].contains c || (verbatim && (c = ',' || c = '[' || c = ']'))

/-- The octet that two hexadecimal digits behind a percent sign denote. -/
def escapedOctet? : List Char → Option (Nat × List Char)
  | '%' :: a :: b :: rest => (Text.natOfDigits? 16 [a, b]).map fun n => (n, rest)
  | _ => none

/-- How many octets follow the first one of a character's UTF-8 form. -/
def octetsAfter? (n : Nat) : Option Nat :=
  if n < 0x80 then some 0
  else if 0xC0 ≤ n && n < 0xE0 then some 1
  else if 0xE0 ≤ n && n < 0xF0 then some 2
  else if 0xF0 ≤ n && n < 0xF8 then some 3
  else none

/-- Reads octets that continue a character's UTF-8 form. -/
def readContinuation : Nat → List Char → Option (List Char)
  | 0, s => some s
  | count + 1, s =>
    match escapedOctet? s with
    | some (n, rest) => if 0x80 ≤ n && n < 0xC0 then readContinuation count rest else none
    | none => none

/-- Reads an escaped character.  Those outside of ASCII occur in no tag that is looked for, and
all are read as the replacement character. -/
def readEscape (s : List Char) : Option (Char × List Char) := do
  let (first, rest) ← escapedOctet? s
  let rest ← readContinuation (← octetsAfter? first) rest
  return (if first < 0x80 then Char.ofNat first else '\uFFFD', rest)

/-- Replaces the escapes in a tag. -/
def decodeTag : Nat → List Char → Option (List Char)
  | _, [] => some []
  | 0, _ => none
  | fuel + 1, '%' :: rest => do
    let (c, rest) ← readEscape ('%' :: rest)
    return c :: (← decodeTag fuel rest)
  | fuel + 1, c :: rest => (decodeTag fuel rest).map (c :: ·)

/-- Reads the characters of a tag. -/
def readTagText (verbatim : Bool) (cursor : Cursor) : Option (List Char × Cursor) :=
  let (raw, cursor) := cursor.takeWhile (isTagChar verbatim)
  (decodeTag raw.length raw).map fun text => (text, cursor)

/-- What a tag means: it ends before a null character, which only an escape can bring in. -/
def meaningOf (tag : List Char) : List Char :=
  tag.takeWhile (· ≠ '\x00')

/-- Reads a handle: an exclamation mark, a name, and another mark where there is one. -/
def readHandle (cursor : Cursor) : Option (List Char × Cursor) :=
  if cursor.looksAt '!' then
    let (name, next) := (cursor.skip 1).takeWhile isWordChar
    if next.looksAt '!' then some ('!' :: name ++ ['!'], next.skip 1)
    else some ('!' :: name, next)
  else none

/-- Whether a handle ends in a mark of its own. -/
def isClosedHandle (handle : List Char) : Bool :=
  handle.length > 1 && handle.getLast? = some '!'

/-- Reads a tag as its handle and its suffix; a handle that is empty stands for nothing. -/
def readTag (inFlow : Bool) (cursor : Cursor) : Option (List Char × List Char × Cursor) := do
  let (handle, suffix, cursor) ← read cursor
  if startsBlank cursor.rest || (inFlow && cursor.looksAt ',') then
    return (handle, suffix, cursor)
  else none
where
  /-- The tag without a look at what follows. -/
  read (cursor : Cursor) : Option (List Char × List Char × Cursor) := do
    if cursor.rest.take 2 = ['!', '<'] then
      let (suffix, cursor) ← readTagText true (cursor.skip 2)
      if suffix.isEmpty || !cursor.looksAt '>' then none
      else return ([], meaningOf suffix, cursor.skip 1)
    else
      let (handle, cursor) ← readHandle cursor
      let (rest, cursor) ← readTagText false cursor
      if isClosedHandle handle then
        if rest.isEmpty then none else return (handle, meaningOf rest, cursor)
      else
        let suffix := meaningOf (handle.drop 1 ++ rest)
        if suffix.isEmpty then return ([], ['!'], cursor)
        else return (['!'], suffix, cursor)

/-! ## Directives -/

/-- Reads a number of at most nine digits. -/
def readVersionNumber (cursor : Cursor) : Option (Nat × Cursor) :=
  let (digits, cursor) := cursor.takeWhile Text.isDigit
  if digits.length > 9 then none
  else (Text.natOfDigits? 10 digits).map fun n => (n, cursor)

/-- Reads the version of a directive. -/
def readVersion (cursor : Cursor) : Option (Token × Cursor) := do
  let (major, cursor) ← readVersionNumber cursor.skipBlanks
  if !cursor.looksAt '.' then none
  let (minor, cursor) ← readVersionNumber (cursor.skip 1)
  return (.versionDirective major minor, cursor)

/-- Reads the handle that a directive declares, and what it stands for. -/
def readTagDirective (cursor : Cursor) : Option (Token × Cursor) := do
  let (handle, cursor) ← readHandle cursor.skipBlanks
  if !(handle = ['!'] || isClosedHandle handle) then none
  if !(cursor.rest.head?.any isBlank) then none
  let (start, cursor) ← readTagText true cursor.skipBlanks
  if start.isEmpty || !startsBlank cursor.rest then none
  return (.tagDirective handle (meaningOf start), cursor)

/-- Reads a directive from behind its sign, with the end of its line. -/
def readDirective (cursor : Cursor) : Option (Token × Cursor) := do
  let (name, cursor) := cursor.takeWhile isWordChar
  if !startsBlank cursor.rest then none
  let (token, cursor) ←
    if name = ['Y', 'A', 'M', 'L'] then readVersion cursor
    else if name = ['T', 'A', 'G'] then readTagDirective cursor
    else none
  return (token, ← cursor.finishLine)

end Converge.Yaml
