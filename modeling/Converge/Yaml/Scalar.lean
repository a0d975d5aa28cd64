import Converge.Text.Digits
import Converge.Yaml.Cursor
/-!
# Scalars of YAML

Reading the text of a scalar in each of its five styles.  White space within a scalar that spans
lines is folded: one line break is a space, and of several the first is dropped.
-/

namespace Converge.Yaml

/-! ## White space within a scalar -/

/-- White space between two words of a scalar. -/
structure Gap where
  /-- The blanks, if no line ends in the gap. -/
  blanks : List Char
  /-- The first break, if a line ends in the gap; empty if the break is escaped. -/
  lead : Option (List Char)
  /-- The other breaks. -/
  trailing : List Char

namespace Gap

/-- No white space. -/
def empty : Gap :=
  ⟨[], none, []⟩

/-- The text that a gap stands for. -/
def fold (gap : Gap) : List Char :=
  match gap.lead with
  | none => gap.blanks
  | some ['\n'] => if gap.trailing.isEmpty then [' '] else gap.trailing
  | some lead => lead ++ gap.trailing

/-- Adds a break. -/
def addBreak (gap : Gap) (text : List Char) : Gap :=
  match gap.lead with
  | none => { gap with lead := some text }
  | some _ => { gap with trailing := gap.trailing ++ text }

/-- Adds a blank, which counts only while no line has ended. -/
def addBlank (gap : Gap) (c : Char) : Gap :=
  if gap.lead.isSome then gap else { gap with blanks := gap.blanks ++ [c] }

/-- Reads on as long as there is white space.  Behind a break no tab may stand in a column below
`indent`. -/
def read (indent : Int) : Nat → Gap → Cursor → Option (Gap × Cursor)
  | 0, gap, cursor => some (gap, cursor)
  | fuel + 1, gap, cursor =>
    match cursor.rest with
    | [] => some (gap, cursor)
    | c :: _ =>
      if isBlank c then
        if c = '\t' && gap.lead.isSome && cursor.mark.column < indent then none
        else read indent fuel (gap.addBlank c) (cursor.skip 1)
      else
        match cursor.readBreak with
        | some (text, next) => read indent fuel (gap.addBreak text) next
        | none => some (gap, cursor)

end Gap

/-! ## Plain scalars -/

/-- The characters that mean something in a flow collection. -/
def isFlowIndicator (c : Char) : Bool :=
  c = ',' || c = '[' || c = ']' || c = '\x7b' || c = '\x7d'

/-- A word of a plain scalar: the characters up to a blank, a break, or a sign that ends the
scalar; `none` where a colon stands before a sign of a flow collection. -/
def plainWord (inFlow : Bool) : List Char → Option (List Char)
  | [] => some []
  | c :: rest =>
    if isBlank c || isBreak c then some []
    else if inFlow && c = ':' && rest.head?.any (fun d => isFlowIndicator d || d = '?') then none
    else if (c = ':' && startsBlank rest) || (inFlow && isFlowIndicator c) then some []
    else (plainWord inFlow rest).map (c :: ·)

/-- Reads a plain scalar on from a text and the gap behind it: the whole text, and whether a line
has ended behind it.  Outside of flow collections a line in a column below `indent` ends it. -/
def readPlain (inFlow : Bool) (indent : Int) :
    Nat → List Char → Gap → Cursor → Option (List Char × Bool × Cursor)
  | 0, _, _, _ => none
  | fuel + 1, text, gap, cursor => do
    if cursor.atDocumentMark || cursor.looksAt '#' then
      return (text, gap.lead.isSome, cursor)
    let word ← plainWord inFlow cursor.rest
    let cursor := cursor.skip word.length
    let (text, gap) := if word.isEmpty then (text, gap) else (text ++ gap.fold ++ word, .empty)
    if cursor.rest.isEmpty || !startsBlank cursor.rest then
      return (text, gap.lead.isSome, cursor)
    let (gap, cursor) ← gap.read indent (cursor.rest.length + 1) cursor
    if !inFlow && cursor.mark.column < indent then return (text, gap.lead.isSome, cursor)
    readPlain inFlow indent fuel text gap cursor

/-! ## Quoted scalars -/

/-- Characters in single quotes up to a blank, a break or the closing quote, and how many
characters they take; a quote is written twice. -/
def singleChunk : List Char → List Char × Nat
  | '\'' :: '\'' :: rest =>
    let (text, count) := singleChunk rest
    ('\'' :: text, count + 2)
  | c :: rest =>
    if c = '\'' || isBlank c || isBreak c then ([], 0)
    else
      let (text, count) := singleChunk rest
      (c :: text, count + 1)
  | [] => ([], 0)

/-- What a backslash and a character stand for. -/
def escaped? (c : Char) : Option Char :=
  match c with
  | '0' => some '\x00'
  | 'a' => some '\x07'
  | 'b' => some '\x08'
  | 't' | '\t' => some '\t'
  | 'n' => some '\n'
  | 'v' => some '\x0b'
  | 'f' => some '\x0c'
  | 'r' => some '\r'
  | 'e' => some '\x1b'
  | ' ' => some ' '
  | '"' => some '"'
  | '/' => some '/'
  | '\\' => some '\\'
  | 'N' => some '\u0085'
  | '_' => some '\u00a0'
  | 'L' => some '\u2028'
  | 'P' => some '\u2029'
  | _ => none

/-- How many hexadecimal digits follow a backslash and a letter. -/
def escapeLength? (c : Char) : Option Nat :=
  match c with
  | 'x' => some 2
  | 'u' => some 4
  | 'U' => some 8
  | _ => none

/-- The character with a number. -/
def charOfNat? (n : Nat) : Option Char :=
  if n.isValidChar then some (Char.ofNat n) else none

/-- The character that a number of hexadecimal digits denotes. -/
def hexChar? (count : Nat) (s : List Char) : Option Char :=
  if s.length < count then none else (Text.natOfDigits? 16 (s.take count)).bind charOfNat?

/-- Characters in double quotes up to a blank, a break, an escaped break or the closing quote, and
how many characters they take. -/
def doubleChunk : Nat → List Char → Option (List Char × Nat)
  | 0, _ => some ([], 0)
  | _ + 1, [] => some ([], 0)
  | fuel + 1, '\\' :: c :: rest =>
    if isBreak c then some ([], 0)
    else
      match escapeLength? c with
      | some length =>
        match hexChar? length rest, doubleChunk fuel (rest.drop length) with
        | some d, some (text, count) => some (d :: text, count + 2 + length)
        | _, _ => none
      | none =>
        match escaped? c, doubleChunk fuel rest with
        | some d, some (text, count) => some (d :: text, count + 2)
        | _, _ => none
  | fuel + 1, c :: rest =>
    if c = '"' || isBlank c || isBreak c then some ([], 0)
    else if c = '\\' then none
    else (doubleChunk fuel rest).map fun (text, count) => (c :: text, count + 1)

/-- Passes over an escaped break, if there is one: a break that stands for nothing. -/
def skipEscapedBreak (cursor : Cursor) : Option Cursor :=
  match cursor.rest with
  | '\\' :: c :: _ => if isBreak c then some (cursor.skip 1).skipBreak else none
  | _ => none

/-- Reads a quoted scalar on from a text, up to and with the closing quote. -/
def readQuoted (single : Bool) : Nat → List Char → Cursor → Option (List Char × Cursor)
  | 0, _, _ => none
  | fuel + 1, text, cursor => do
    if cursor.atDocumentMark || cursor.rest.isEmpty then none
    let (chunk, count) ←
      if single then some (singleChunk cursor.rest)
      else doubleChunk (cursor.rest.length + 1) cursor.rest
    let text := text ++ chunk
    let cursor := cursor.skip count
    let (gap, cursor) := match if single then none else skipEscapedBreak cursor with
      | some next => ({ Gap.empty with lead := some [] }, next)
      | none => (Gap.empty, cursor)
    if cursor.looksAt (if single then '\'' else '"') then
      return (text, cursor.skip 1)
    let (gap, cursor) ← gap.read 0 (cursor.rest.length + 1) cursor
    readQuoted single fuel (text ++ gap.fold) cursor

/-! ## Block scalars -/

/-- What becomes of the breaks at the end of a block scalar. -/
inductive Chomping where
  | strip
  | clip
  | keep
  deriving DecidableEq

/-- Reads the sign for chomping, if there is one. -/
def readChomping (cursor : Cursor) : Option (Chomping × Cursor) :=
  match cursor.rest with
  | '+' :: _ => some (.keep, cursor.skip 1)
  | '-' :: _ => some (.strip, cursor.skip 1)
  | _ => none

/-- Reads the digit for the indentation, if there is one: zero for none. -/
def readIncrement (cursor : Cursor) : Option (Nat × Cursor) :=
  match cursor.rest with
  | c :: _ =>
    if c = '0' then none
    else if Text.isDigit c then some (c.toNat - 48, cursor.skip 1)
    else some (0, cursor)
  | [] => some (0, cursor)

/-- Reads the header of a block scalar: chomping and indentation in either order. -/
def readHeader (cursor : Cursor) : Option (Chomping × Nat × Cursor) := do
  match readChomping cursor with
  | some (chomping, cursor) =>
    let (increment, cursor) ← readIncrement cursor
    return (chomping, increment, ← cursor.finishLine)
  | none =>
    let (increment, cursor) ← readIncrement cursor
    let (chomping, cursor) :=
      if increment = 0 then (.clip, cursor)
      else (readChomping cursor).getD (.clip, cursor)
    return (chomping, increment, ← cursor.finishLine)

/-- Takes the breaks of empty lines: their text, the deepest column that was reached, and the place
behind them.  An `indent` of zero is not known yet. -/
def readEmptyLines (indent : Nat) :
    Nat → List Char → Nat → Cursor → Option (List Char × Nat × Cursor)
  | 0, _, _, _ => none
  | fuel + 1, text, deepest, cursor =>
    let spaces := (cursor.rest.takeWhile (· = ' ')).length
    let count := if indent = 0 then spaces else min spaces (indent - cursor.mark.column)
    let cursor := cursor.skip count
    let deepest := max deepest cursor.mark.column
    if cursor.looksAt '\t' && (indent = 0 || cursor.mark.column < indent) then none
    else
      match cursor.readBreak with
      | some (lineBreak, next) => readEmptyLines indent fuel (text ++ lineBreak) deepest next
      | none => some (text, deepest, cursor)

/-- What has been read of a block scalar. -/
structure BlockText where
  text : List Char
  /-- The break that ended the last line. -/
  lead : List Char
  /-- The breaks of the empty lines behind it. -/
  trailing : List Char
  /-- Whether the last line starts with a blank. -/
  indented : Bool

/-- Reads the lines of a block scalar, which start in the column `indent`. -/
def readLines (folded : Bool) (indent : Nat) : Nat → BlockText → Cursor →
    Option (BlockText × Cursor)
  | 0, _, _ => none
  | fuel + 1, block, cursor =>
    if cursor.mark.column ≠ indent || cursor.rest.isEmpty then some (block, cursor)
    else do
      let indented := cursor.rest.head?.any isBlank
      let joint :=
        if folded && block.lead = ['\n'] && !block.indented && !indented then
          if block.trailing.isEmpty then [' '] else []
        else block.lead
      let line := cursor.rest.takeWhile fun c => !isBreak c
      let cursor := cursor.skip line.length
      let (lead, cursor) := (cursor.readBreak).getD ([], cursor)
      let (trailing, _, cursor) ←
        readEmptyLines indent (cursor.rest.length + 1) [] 0 cursor
      let text := block.text ++ joint ++ block.trailing ++ line
      readLines folded indent fuel ⟨text, lead, trailing, indented⟩ cursor

/-- Reads a block scalar from behind its sign, within a block of the indentation `outer`. -/
def readBlock (folded : Bool) (outer : Int) (cursor : Cursor) :
    Option (List Char × Cursor) := do
  let (chomping, increment, cursor) ← readHeader cursor
  let fuel := cursor.rest.length + 2
  let known := if increment = 0 then 0 else outer.toNat + increment
  let (trailing, deepest, cursor) ← readEmptyLines known fuel [] 0 cursor
  let indent := if known = 0 then max deepest (max (outer + 1).toNat 1) else known
  let (block, cursor) ← readLines folded indent fuel ⟨[], [], trailing, false⟩ cursor
  let ending := match chomping with
    | .strip => []
    | .clip => block.lead
    | .keep => block.lead ++ block.trailing
  return (block.text ++ ending, cursor)

end Converge.Yaml
