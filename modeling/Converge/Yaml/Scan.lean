import Converge.Yaml.Property
import Converge.Yaml.Scalar
/-!
# The tokens of a YAML text

`Token.scan` cuts a text into tokens.  A key need not be marked as one: where a colon follows a
piece of one line, the key token is put in front of that piece afterwards.  So the scanner
remembers, for the block and for every flow collection it is in, the last place where a key could
start.  Indentation is turned into tokens as well.
-/

namespace Converge.Yaml

/-- A place where a key may have started. -/
structure KeyPlace where
  /-- Whether a key must have started there, because no other thing may stand there. -/
  required : Bool
  /-- The number of tokens before it. -/
  position : Nat
  mark : Mark

/-- The longest key, in bytes. -/
def maxKeyLength : Nat := 1024

/-- The state of scanning. -/
structure Scanner where
  cursor : Cursor
  /-- The tokens so far. -/
  tokens : Array Token
  /-- The column of the innermost block; minus one outside of all blocks. -/
  indent : Int
  /-- The columns of the blocks around it. -/
  outer : List Int
  /-- Whether a key may start at the next token. -/
  keyAllowed : Bool
  /-- Where a key may have started in the innermost collection. -/
  key : Option KeyPlace
  /-- The same for the collections around a flow collection; one entry for each flow collection
  that is open. -/
  outerKeys : List (Option KeyPlace)

namespace Scanner

/-- Whether a flow collection is open. -/
def inFlow (s : Scanner) : Bool :=
  !s.outerKeys.isEmpty

/-- Adds a token. -/
def push (s : Scanner) (token : Token) : Scanner :=
  { s with tokens := s.tokens.push token }

/-- Adds a token and goes on to a place. -/
def emit (s : Scanner) (token : Token) (cursor : Cursor) : Scanner :=
  { s with tokens := s.tokens.push token, cursor }

/-! ## Keys -/

/-- Gives up the place where a key may have started; fails if a key must have. -/
def dropKey (s : Scanner) : Option Scanner :=
  if s.key.any (·.required) then none else some { s with key := none }

/-- Notes that a key may start here. -/
def saveKey (s : Scanner) : Option Scanner := do
  if s.keyAllowed then
    let required := !s.inFlow && s.indent = s.cursor.mark.column
    let s ← s.dropKey
    return { s with key := some ⟨required, s.tokens.size, s.cursor.mark⟩ }
  else return s

/-- Whether a key that has started at a place can no longer be one here, because it spans lines or
is too long. -/
def isStale (s : Scanner) (place : KeyPlace) : Bool :=
  place.mark.line < s.cursor.mark.line ||
    place.mark.index + maxKeyLength < s.cursor.mark.index

/-- Gives up the places where a key can no longer have started. -/
def dropStaleKeys (s : Scanner) : Option Scanner :=
  if (s.key :: s.outerKeys).any fun key => key.any fun k => k.required && s.isStale k then none
  else
    let keep (key : Option KeyPlace) : Option KeyPlace := key.filter fun k => !s.isStale k
    some { s with key := keep s.key, outerKeys := s.outerKeys.map keep }

/-! ## Indentation -/

/-- Opens a block in a column, unless one is open there or further in. -/
def openBlock (s : Scanner) (column : Nat) (position : Nat) (token : Token) : Scanner :=
  if !s.inFlow && s.indent < column then
    { s with
      outer := s.indent :: s.outer
      indent := column
      tokens := s.tokens.insertIdxIfInBounds position token }
  else s

/-- Closes blocks until the innermost is in a column or further out. -/
def closeBlocks (column : Int) : List Int → Scanner → Scanner
  | [], s => s
  | next :: rest, s =>
    if s.indent > column then
      closeBlocks column rest { s.push .blockEnd with indent := next, outer := rest }
    else s

/-- Closes the blocks further in than a column. -/
def closeTo (s : Scanner) (column : Int) : Scanner :=
  if s.inFlow then s else closeBlocks column s.outer s

/-! ## White space -/

/-- Passes over white space and comments.  Where a key may start, a tab is no white space; outside
of flow collections a key may start on a new line. -/
def skipSpace : Nat → Scanner → Scanner
  | 0, s => s
  | fuel + 1, s =>
    let cursor := if s.cursor.mark.column = 0 && s.cursor.looksAt byteOrderMark then
      s.cursor.skip 1 else s.cursor
    let tabs := s.inFlow || !s.keyAllowed
    let cursor := cursor.skipWhile fun c => c = ' ' || (tabs && c = '\t')
    let cursor := if cursor.looksAt '#' then cursor.skipToBreak else cursor
    match cursor.readBreak with
    | some (_, next) =>
      skipSpace fuel { s with cursor := next, keyAllowed := s.keyAllowed || !s.inFlow }
    | none => { s with cursor }

/-! ## Tokens -/

/-- A directive, or the start or end of a document, which ends every block. -/
def endBlocks (s : Scanner) : Option Scanner := do
  let s ← (s.closeTo (-1)).dropKey
  return { s with keyAllowed := false }

/-- The start of a flow collection. -/
def openFlow (s : Scanner) (token : Token) : Option Scanner := do
  let s ← s.saveKey
  let s := { s with outerKeys := s.key :: s.outerKeys, key := none, keyAllowed := true }
  return s.emit token (s.cursor.skip 1)

/-- The end of a flow collection. -/
def closeFlow (s : Scanner) (token : Token) : Option Scanner := do
  let s ← s.dropKey
  let s := match s.outerKeys with
    | [] => s
    | key :: rest => { s with key, outerKeys := rest }
  return { s with keyAllowed := false }.emit token (s.cursor.skip 1)

/-- A comma of a flow collection. -/
def flowEntry (s : Scanner) : Option Scanner := do
  let s ← s.dropKey
  return { s with keyAllowed := true }.emit .flowEntry (s.cursor.skip 1)

/-- Opens a block at this place, where it is allowed. -/
def openHere (s : Scanner) (token : Token) : Option Scanner :=
  if s.inFlow then some s
  else if s.keyAllowed then
    let column := s.cursor.mark.column
    some (s.openBlock column s.tokens.size token)
  else none

/-- The dash of a sequence. -/
def blockEntry (s : Scanner) : Option Scanner := do
  let s ← (← s.openHere .blockSequenceStart).dropKey
  return { s with keyAllowed := true }.emit .blockEntry (s.cursor.skip 1)

/-- The question mark of a key. -/
def explicitKey (s : Scanner) : Option Scanner := do
  let s ← (← s.openHere .blockMappingStart).dropKey
  return { s with keyAllowed := !s.inFlow }.emit .key (s.cursor.skip 1)

/-- The colon of a value.  If a key may have started, it has. -/
def value (s : Scanner) : Option Scanner := do
  match s.key with
  | some place =>
    let s := { s with tokens := s.tokens.insertIdxIfInBounds place.position .key, key := none }
    let s := s.openBlock place.mark.column place.position .blockMappingStart
    return { s with keyAllowed := false }.emit .value (s.cursor.skip 1)
  | none =>
    let s ← s.openHere .blockMappingStart
    return { s with keyAllowed := !s.inFlow }.emit .value (s.cursor.skip 1)

/-- A piece that may be a key, behind which no key may start. -/
def piece (s : Scanner) (read : Scanner → Option (Token × Cursor)) : Option Scanner := do
  let s ← s.saveKey
  let (token, cursor) ← read s
  return { s with keyAllowed := false }.emit token cursor

/-- An anchor or an alias. -/
def anchor (s : Scanner) (token : List Char → Token) : Option Scanner :=
  s.piece fun s => (readAnchorName (s.cursor.skip 1)).map fun (name, cursor) =>
    (token name, cursor)

/-- A tag. -/
def tag (s : Scanner) : Option Scanner :=
  s.piece fun s => (readTag s.inFlow s.cursor).map fun (handle, suffix, cursor) =>
    (.tag handle suffix, cursor)

/-- A quoted scalar. -/
def quoted (s : Scanner) (single : Bool) : Option Scanner :=
  s.piece fun s =>
    (readQuoted single (s.cursor.rest.length + 2) [] (s.cursor.skip 1)).map
      fun (text, cursor) =>
        (.scalar text (if single then .singleQuoted else .doubleQuoted), cursor)

/-- A block scalar. -/
def block (s : Scanner) (folded : Bool) : Option Scanner := do
  let s ← s.dropKey
  let (text, cursor) ← readBlock folded s.indent (s.cursor.skip 1)
  return { s with keyAllowed := true }.emit
    (.scalar text (if folded then .folded else .literal)) cursor

/-- A plain scalar.  A key may start behind it where a line has ended. -/
def plain (s : Scanner) : Option Scanner := do
  let s ← s.saveKey
  let (text, lineEnded, cursor) ←
    readPlain s.inFlow (s.indent + 1) (s.cursor.rest.length + 2) [] .empty s.cursor
  return { s with keyAllowed := lineEnded }.emit (.scalar text .plain) cursor

/-- Whether a plain scalar may start with a character before a rest. -/
def startsPlain (inFlow : Bool) (c : Char) (rest : List Char) : Bool :=
  !(isBlank c || isBreak c ||
      ['-', '?', ':', ',', '[', ']', '\x7b', '\x7d', '#', '&', '*', '!', '|', '>', '\'', '"', '%',
        '@', '\x60'].contains c) ||
    (c = '-' && !rest.head?.any isBlank) ||
    (!inFlow && (c = '?' || c = ':') && !startsBlank rest)

/-- The next token, with those that indentation puts before it; `none` where the text breaks the
rules. -/
def next (s : Scanner) : Option Scanner := do
  let s ← (skipSpace (s.cursor.rest.length + 1) s).dropStaleKeys
  let s := s.closeTo s.cursor.mark.column
  match s.cursor.rest with
  | [] =>
    let s ← s.endBlocks
    return s.push .streamEnd
  | c :: rest =>
    if s.cursor.mark.column = 0 && c = '%' then
      let s ← s.endBlocks
      let (token, cursor) ← readDirective (s.cursor.skip 1)
      return s.emit token cursor
    else if s.cursor.atLineMark '-' then
      return (← s.endBlocks).emit .documentStart (s.cursor.skip 3)
    else if s.cursor.atLineMark '.' then
      return (← s.endBlocks).emit .documentEnd (s.cursor.skip 3)
    else if c = '[' then s.openFlow .flowSequenceStart
    else if c = '\x7b' then s.openFlow .flowMappingStart
    else if c = ']' then s.closeFlow .flowSequenceEnd
    else if c = '\x7d' then s.closeFlow .flowMappingEnd
    else if c = ',' then s.flowEntry
    else if c = '-' && startsBlank rest then s.blockEntry
    else if c = '?' && (s.inFlow || startsBlank rest) then s.explicitKey
    else if c = ':' && (s.inFlow || startsBlank rest) then s.value
    else if c = '*' then s.anchor .alias
    else if c = '&' then s.anchor .anchor
    else if c = '!' then s.tag
    else if c = '|' && !s.inFlow then s.block false
    else if c = '>' && !s.inFlow then s.block true
    else if c = '\'' then s.quoted true
    else if c = '"' then s.quoted false
    else if startsPlain s.inFlow c rest then s.plain
    else none

/-- Scans to the end of the text. -/
def run : Nat → Scanner → Option (Array Token)
  | 0, _ => none
  | fuel + 1, s => do
    let s ← s.next
    if s.tokens.back? = some .streamEnd then return s.tokens else run fuel s

end Scanner

/-- The tokens of a text, of which the last one is the end of the stream; `none` if the text
breaks the rules of scanning. -/
def Token.scan (text : List Char) : Option (List Token) :=
  if text.all isAllowed then
    let start : Scanner := ⟨.start text, #[], -1, [], true, none, []⟩
    (start.run (text.length + 2)).map Array.toList
  else none

end Converge.Yaml
