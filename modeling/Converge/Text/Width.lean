import Converge.Text.CharWidth
import Converge.Text.Emoji
import Converge.Text.Ligature
/-!
# The width of a line

How many columns of a terminal a line takes.  Characters are not simply added up: several of them
make one emoji of two columns, a selector asks for the other look of the character before it, and
letters of some scripts join.  All of these are told by what follows, so a line is read from its
end, and `Behind` is what has been read, as far as the character before it has to know.  Main
statement: a line of characters up to U+00A0 is as wide as it has characters (`width_of_le`).
-/

namespace Converge.Text

/-- How a selector wants the character before it to look. -/
inductive Look where
  /-- As an emoji, which is wide. -/
  | emoji
  /-- As text. -/
  | text
  /-- As a quotation mark of a wide script. -/
  | wideQuote
  deriving DecidableEq, Repr

/-- The look that a selector asks for. -/
def Look.of? (c : Char) : Option Look :=
  if c = Emoji.emojiSelector then some .emoji
  else if c = Emoji.textSelector then some .text
  else if c = '\uFE01' then some .wideQuote
  else none

/-- The quotation marks that have a wide look. -/
def isQuote (c : Char) : Bool :=
  c = '\u2018' || c = '\u2019' || c = '\u201C' || c = '\u201D'

/-- The characters read so far that one before them can join. -/
inductive Tail where
  /-- Nothing that can be joined. -/
  | plain
  /-- The end of a script's ligature. -/
  | ligature (ending : Ending)
  /-- A skin tone. -/
  | skinTone
  /-- A letter of a flag. -/
  | flagLetter
  /-- Two letters of a flag or more. -/
  | flagLetters
  /-- An emoji. -/
  | emoji
  /-- An emoji with a joiner before it; the states below are of such a sequence too. -/
  | joinedEmoji
  /-- The cap of a key. -/
  | joinedKeycap
  /-- A single letter of a flag. -/
  | joinedLetter
  /-- Letters of flags in pairs. -/
  | joinedPairs
  /-- Letters of flags in pairs, and one before them. -/
  | joinedOdd
  /-- The end of a region's code: so many letters, and then so many digits before them. -/
  | joinedTags (letters digits : Nat)
  deriving DecidableEq, Repr

/-- What stands behind a character. -/
structure Behind where
  tail : Tail
  /-- The look that a selector right behind the character asks for. -/
  look : Option Look
  deriving DecidableEq, Repr

namespace Tail

/-- Selectors stand in a ligature without breaking it. -/
def isLigature : Tail → Bool
  | ligature _ => true
  | _ => false

/-- The tail behind a selector.  An emoji selector also belongs to the emoji before a joiner. -/
def select (look : Look) : Tail → Tail
  | ligature ending => ligature ending
  | joinedEmoji => if look = .emoji then joinedEmoji else plain
  | joinedKeycap => if look = .emoji then joinedKeycap else plain
  | _ => plain

/-- What a character in front of a tail adds to the width of the line, and the tail that the two
make; `none` when they stand apart. -/
def join? (c : Char) : Tail → Option (Int × Tail)
  | plain => none
  | ligature ending =>
    (ending.join? c (decide (c ∈ transparentMarks))).map fun (columns, rest) =>
      (columns, (rest.map ligature).getD plain)
  | skinTone =>
    if c ∈ Emoji.toned then some (0, emoji)
    else if c = Emoji.joiner then some (0, joinedEmoji)
    else none
  | flagLetter => if Emoji.isFlagLetter c then some (1, flagLetters) else none
  | flagLetters =>
    if Emoji.isFlagLetter c then some (1, flagLetters)
    else if c = Emoji.joiner then some (0, joinedEmoji)
    else none
  | emoji => if c = Emoji.joiner then some (0, joinedEmoji) else none
  | joinedEmoji =>
    if c ∈ Emoji.pictures then some (0, emoji)
    else if Emoji.isSkinTone c then some (0, skinTone)
    else if Emoji.isFlagLetter c then some (1, joinedLetter)
    else if c = Emoji.keycap then some (0, joinedKeycap)
    else if c.toNat = Emoji.lastTag then some (0, joinedTags 0 0)
    else none
  | joinedKeycap => none
  | joinedLetter => if Emoji.isFlagLetter c then some (-1, joinedPairs) else none
  | joinedPairs =>
    if Emoji.isFlagLetter c then some (3, joinedOdd)
    else if c = Emoji.joiner then some (0, joinedEmoji)
    else none
  | joinedOdd =>
    if Emoji.isFlagLetter c then some (-1, joinedPairs)
    else if c = Emoji.joiner then some (0, joinedEmoji)
    else none
  | joinedTags letters digits =>
    if Emoji.isTagLetter c ∧ digits = 0 ∧ letters < 6 then some (0, joinedTags (letters + 1) 0)
    else if Emoji.isTagDigit c ∧ letters ≤ 4 ∧ digits < 3 then
      some (0, joinedTags letters (digits + 1))
    else if c = Emoji.blackFlag ∧ (digits = 3 ∨ digits = 0 ∧ 3 ≤ letters) then some (0, emoji)
    else none

/-- The tail that a character makes by itself. -/
def of (c : Char) : Tail :=
  if c ∈ Emoji.pictures then emoji
  else if Emoji.isSkinTone c then skinTone
  else if Emoji.isFlagLetter c then flagLetter
  else ((Ending.of? c).map ligature).getD plain

end Tail

namespace Behind

/-- Nothing stands behind the last character. -/
def nothing : Behind :=
  ⟨.plain, none⟩

/-- The tail once the character before a selector does not heed it. -/
def unheeded (behind : Behind) : Tail :=
  if behind.look = none ∨ behind.tail.isLigature then behind.tail else .plain

/-- What a character adds to the width of the line that stands behind it, and what it makes of it
for the character before. -/
def read (c : Char) (behind : Behind) : Int × Behind :=
  if behind.look = some .emoji ∧ Emoji.takesEmojiSelector c then
    (if behind.tail = .joinedEmoji ∨ behind.tail = .joinedKeycap then 0 else 2, ⟨.emoji, none⟩)
  else if c.toNat ≤ 0xA0 then (1, nothing)
  else
    match Look.of? c with
    | some look => (0, ⟨behind.unheeded.select look, some look⟩)
    | none =>
      if behind.look = some .text ∧ Emoji.takesTextSelector c then (1, nothing)
      else if behind.look = some .wideQuote ∧ isQuote c then (2, nothing)
      else
        match behind.unheeded.join? c with
        | some (columns, tail) => (columns, ⟨tail, none⟩)
        | none => (charWidth c, ⟨Tail.of c, none⟩)

/-- The width of a line, and what it is for a character before it. -/
def line : List Char → Int × Behind
  | [] => (0, nothing)
  | c :: rest =>
    let (columns, behind) := line rest
    let (more, behind) := read c behind
    (columns + more, behind)

end Behind

/-- The columns that a line of text takes. -/
def width (s : List Char) : Nat :=
  (Behind.line s).1.toNat

/-! ## Lines of narrow characters -/

theorem Behind.read_of_le {c : Char} (h : c.toNat ≤ 0xA0) : read c nothing = (1, nothing) := by
  simp [read, h, nothing]

theorem Behind.line_of_le {s : List Char} (h : ∀ c ∈ s, c.toNat ≤ 0xA0) :
    line s = ((s.length : Int), nothing) := by
  induction s with
  | nil => rfl
  | cons c rest ih =>
    rw [line, ih fun d hd => h d (List.mem_cons_of_mem _ hd)]
    simp [read_of_le (h c List.mem_cons_self)]

theorem width_of_le {s : List Char} (h : ∀ c ∈ s, c.toNat ≤ 0xA0) : width s = s.length := by
  simp [width, Behind.line_of_le h]

end Converge.Text
