/-!
# Places in a YAML text

A cursor is the rest of a text with its place: how many bytes of UTF-8 stand before it, and on
which line and in which column it is.  Main definitions: the classes of characters that matter to
YAML, and `Cursor.skip` and `Cursor.readBreak`, which keep the place right.
-/

namespace Converge.Yaml

/-! ## Characters -/

/-- A character that may stand in a YAML text. -/
def isAllowed (c : Char) : Bool :=
  let n := c.toNat
  n == 0x09 || n == 0x0A || n == 0x0D || (0x20 ≤ n && n ≤ 0x7E) || n == 0x85 ||
    (0xA0 ≤ n && n ≤ 0xD7FF) || (0xE000 ≤ n && n ≤ 0xFFFD) || 0x10000 ≤ n

/-- A character that ends a line. -/
def isBreak (c : Char) : Bool :=
  c = '\r' || c = '\n' || c = '\u0085' || c = '\u2028' || c = '\u2029'

/-- A space or a tab. -/
def isBlank (c : Char) : Bool :=
  c = ' ' || c = '\t'

/-- A character of a name. -/
def isWordChar (c : Char) : Bool :=
  c.isAlphanum || c = '_' || c = '-'

/-- Whether a text starts with a blank or a break, or is at its end. -/
def startsBlank : List Char → Bool
  | [] => true
  | c :: _ => isBlank c || isBreak c

/-- The mark of byte order. -/
def byteOrderMark : Char := '\uFEFF'

/-! ## Places -/

/-- The bytes of a text in UTF-8. -/
def byteCount (s : List Char) : Nat :=
  s.foldr (fun c count => c.utf8Size + count) 0

/-- A place in a text. -/
structure Mark where
  /-- The bytes before it. -/
  index : Nat
  line : Nat
  column : Nat

/-- The rest of a text at a place. -/
structure Cursor where
  rest : List Char
  mark : Mark

namespace Cursor

/-- The place in front of a text. -/
def start (text : List Char) : Cursor :=
  ⟨text, ⟨0, 0, 0⟩⟩

/-- Whether the next character is this one. -/
def looksAt (cursor : Cursor) (c : Char) : Bool :=
  cursor.rest.head? = some c

/-- Passes over characters none of which ends a line. -/
def skip (cursor : Cursor) (count : Nat) : Cursor :=
  { rest := cursor.rest.drop count
    mark :=
      { index := cursor.mark.index + byteCount (cursor.rest.take count)
        line := cursor.mark.line
        column := cursor.mark.column + count } }

/-- Takes the characters in front that belong to a class, none of which ends a line. -/
def takeWhile (cursor : Cursor) (p : Char → Bool) : List Char × Cursor :=
  let taken := cursor.rest.takeWhile p
  (taken, cursor.skip taken.length)

/-- Passes over the characters in front that belong to a class. -/
def skipWhile (cursor : Cursor) (p : Char → Bool) : Cursor :=
  (cursor.takeWhile p).2

/-- Passes over blanks. -/
def skipBlanks (cursor : Cursor) : Cursor :=
  cursor.skipWhile isBlank

/-- Passes over the rest of the line. -/
def skipToBreak (cursor : Cursor) : Cursor :=
  cursor.skipWhile fun c => !isBreak c

/-- Goes on to the next line behind a break of so many characters. -/
def nextLine (cursor : Cursor) (count : Nat) : Cursor :=
  { rest := cursor.rest.drop count
    mark :=
      { index := cursor.mark.index + byteCount (cursor.rest.take count)
        line := cursor.mark.line + 1
        column := 0 } }

/-- Takes the end of a line: the separators of lines and paragraphs stand for themselves, every
other break for a line feed. -/
def readBreak (cursor : Cursor) : Option (List Char × Cursor) :=
  match cursor.rest with
  | '\r' :: '\n' :: _ => some (['\n'], cursor.nextLine 2)
  | c :: _ =>
    if c = '\u2028' || c = '\u2029' then some ([c], cursor.nextLine 1)
    else if isBreak c then some (['\n'], cursor.nextLine 1)
    else none
  | [] => none

/-- Passes over the end of a line, if there is one. -/
def skipBreak (cursor : Cursor) : Cursor :=
  match cursor.readBreak with
  | some (_, next) => next
  | none => cursor

/-- Whether a line starts here with three characters that stand alone. -/
def atLineMark (cursor : Cursor) (c : Char) : Bool :=
  cursor.mark.column == 0 && cursor.rest.take 3 == [c, c, c] && startsBlank (cursor.rest.drop 3)

/-- Whether a document starts or ends here. -/
def atDocumentMark (cursor : Cursor) : Bool :=
  cursor.atLineMark '-' || cursor.atLineMark '.'

/-- Passes over blanks and a comment to the end of the line, where nothing else may stand. -/
def finishLine (cursor : Cursor) : Option Cursor :=
  let cursor := cursor.skipBlanks
  let cursor := if cursor.looksAt '#' then cursor.skipToBreak else cursor
  if cursor.rest.isEmpty then some cursor else cursor.readBreak.map (·.2)

end Cursor

end Converge.Yaml
