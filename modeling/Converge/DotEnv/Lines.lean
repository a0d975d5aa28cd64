import Converge.Text.Blank
/-!
# Lines of environment files

An assignment may go over several lines of the file, as long as quotes are open or a line ends in
a backslash.  `DotEnv.logicalLines` puts such lines together, cuts comments off, and tells whether
the file ends within an assignment.
-/

namespace Converge.DotEnv

/-- Where reading is within an assignment. -/
inductive LineState where
  /-- In plain text. -/
  | plain
  /-- Behind a blank, where a comment may start. -/
  | blank
  /-- Behind a backslash. -/
  | escape
  | single
  | singleEscape
  | double
  | doubleEscape
  deriving DecidableEq

/-- The state behind a character of plain text. -/
def LineState.afterPlain (c : Char) : LineState :=
  if c = '\\' then .escape
  else if c = '"' then .double
  else if c = '\'' then .single
  else .plain

/-- The state behind a character. -/
def LineState.next (state : LineState) (c : Char) : LineState :=
  match state with
  | .blank => .afterPlain c
  | .escape => .plain
  | .plain => if Text.isBlank c && c ≠ '\n' && c ≠ '\r' then .blank else .afterPlain c
  | .double => if c = '\\' then .doubleEscape else if c = '"' then .plain else .double
  | .doubleEscape => .double
  | .single => if c = '\\' then .singleEscape else if c = '\'' then .plain else .single
  | .singleEscape => .single

/-- The part of a line in front of a comment, and the state at its end; no state if a comment
follows. -/
def scanLine : LineState → List Char → List Char × Option LineState
  | state, [] => ([], some state)
  | state, c :: rest =>
    if state = .blank && c = '#' then ([], none)
    else
      let (text, last) := scanLine (state.next c) rest
      (c :: text, last)

/-- The lines of a text, each with the line feed that ends it. -/
def physicalLines : List Char → List (List Char)
  | [] => []
  | c :: rest =>
    if c = '\n' then [c] :: physicalLines rest
    else
      match physicalLines rest with
      | [] => [[c]]
      | line :: lines => (c :: line) :: lines

/-- Drops the end of a line. -/
def dropLineEnd (line : List Char) : List Char :=
  match line.reverse with
  | '\n' :: '\r' :: rest | '\n' :: rest => rest.reverse
  | _ => line

/-- The assignments in lines, on from a text that has been read and the state behind it, and
whether the last one is complete.  A line that starts with a number sign is empty, and takes what
was read before with it. -/
def joinLines (before : List Char) (state : LineState) :
    List (List Char) → List (List Char) × Bool
  | [] => ([], state = .plain)
  | line :: rest =>
    if (Text.trimStart (before ++ line)).head? = some '#' then joinRest [] rest
    else
      match scanLine state line with
      | (text, none) => joinRest (before ++ text) rest
      | (text, some .plain) => joinRest (dropLineEnd (before ++ text)) rest
      | (text, some state) => joinLines (before ++ text) state rest
where
  /-- The lines behind an assignment that is complete. -/
  joinRest (done : List Char) (rest : List (List Char)) : List (List Char) × Bool :=
    let (lines, complete) := joinLines [] .plain rest
    (done :: lines, complete)

/-- The assignments in a text, and whether the last one is complete. -/
def logicalLines (text : List Char) : List (List Char) × Bool :=
  joinLines [] .plain (physicalLines text)

end Converge.DotEnv
