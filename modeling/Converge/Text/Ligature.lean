/-!
# Ligatures of scripts

Letters of some scripts share one column with the letters before them.  A line is read from its end
here, so a ligature is met at its last letter: `Ending` says which letters of one have been read,
and `Ending.join?` what the character before makes of it.  Main statement: a joiner in front of an
ending, however often it is repeated, counts once (`Ending.joined_joined`).
-/

namespace Converge.Text

/-- The end of a ligature. -/
inductive Ending where
  /-- An alef of the Arabic script. -/
  | alef
  /-- The lamed of the Hebrew script. -/
  | lamed
  /-- A lamed with a joiner before it. -/
  | joinedLamed
  /-- The letter ya of the Buginese script. -/
  | ya
  /-- A ya with a joiner before it. -/
  | joinedYa
  /-- A joined ya with the vowel i before it. -/
  | vowelYa
  /-- A letter of Khmer that can be written below another one. -/
  | subscript
  /-- A consonant of the Tifinagh script. -/
  | consonant
  /-- A consonant with a joiner before it. -/
  | joinedConsonant
  /-- A consonant with the script's own joining sign before it. -/
  | linkedConsonant
  /-- The second letter of a tone of the Lisu script. -/
  | tone
  /-- The letter i of the Old Turkic script. -/
  | runicI
  /-- A runic i with a joiner before it. -/
  | joinedRunicI
  /-- The vowel e of the Kirat Rai script. -/
  | vowelE
  /-- The vowel ai of the Kirat Rai script, in one character or in two. -/
  | vowelAi
  deriving DecidableEq, Repr

namespace Ending

/-- An alef, with or without signs of its own. -/
def isAlef (n : Nat) : Bool :=
  n == 0x622 || n == 0x623 || n == 0x625 || n == 0x627 || (0x671 ≤ n && n ≤ 0x673) ||
    n == 0x675 || n == 0x773 || n == 0x774 || (0x870 ≤ n && n ≤ 0x882)

/-- A lam, with or without signs of its own. -/
def isLam (n : Nat) : Bool :=
  n == 0x644 || (0x6B5 ≤ n && n ≤ 0x6B8) || n == 0x76A || n == 0x8A6 || n == 0x8C7

/-- A letter of Khmer that can be written below another one. -/
def isSubscript (n : Nat) : Bool :=
  (0x1780 ≤ n && n ≤ 0x1782) || (0x1784 ≤ n && n ≤ 0x1787) || (0x1789 ≤ n && n ≤ 0x178C) ||
    (0x178E ≤ n && n ≤ 0x1793) || (0x1795 ≤ n && n ≤ 0x1798) || (0x179B ≤ n && n ≤ 0x179D) ||
    n == 0x17A0 || n == 0x17A2 || n == 0x17A7 || n == 0x17AB || n == 0x17AC || n == 0x17AF

/-- A consonant of the Tifinagh script. -/
def isConsonant (n : Nat) : Bool :=
  (0x2D31 ≤ n && n ≤ 0x2D65) || n == 0x2D6F

/-- The ending that a character is by itself. -/
def of? (c : Char) : Option Ending :=
  let n := c.toNat
  if isAlef n then some .alef
  else if isSubscript n then some .subscript
  else if isConsonant n then some .consonant
  else if n = 0x5DC then some .lamed
  else if n = 0x1A10 then some .ya
  else if n = 0xA4FC ∨ n = 0xA4FD then some .tone
  else if n = 0x10C03 then some .runicI
  else if n = 0x16D67 then some .vowelE
  else if n = 0x16D68 then some .vowelAi
  else none

/-- The ending behind a joiner. -/
def joined : Ending → Ending
  | lamed => joinedLamed
  | ya => joinedYa
  | consonant => joinedConsonant
  | runicI => joinedRunicI
  | ending => ending

/-- A joiner. -/
def isJoiner (n : Nat) : Bool :=
  n == 0x200D

/-- A mark that is not shown and stands in a ligature without breaking it. -/
def isInvisibleMark (n : Nat) : Bool :=
  n == 0x34F || n == 0x17B4 || n == 0x17B5 || (0x180B ≤ n && n ≤ 0x180D) || n == 0x180F ||
    (0xFE00 ≤ n && n ≤ 0xFE0F) || (0xE0100 ≤ n && n ≤ 0xE01EF)

/-- What a character before an ending adds to the width of the line, and the ending that it makes;
`none` when it takes no part in the ligature.  An alef joins a lam across the marks that
`transparent` tells; the other endings let joiners and invisible marks pass. -/
def join? (c : Char) (transparent : Bool) : Ending → Option (Int × Option Ending)
  | alef =>
    if isLam c.toNat then some (0, none)
    else if transparent then some (0, some alef)
    else none
  | ending =>
    let n := c.toNat
    if isJoiner n then some (0, some ending.joined)
    else if isInvisibleMark n then some (0, some ending)
    else
      match ending with
      | joinedLamed => if n = 0x5D0 then some (0, none) else none
      | joinedYa => if n = 0x1A17 then some (0, some vowelYa) else none
      | vowelYa => if n = 0x1A15 then some (0, none) else none
      | subscript => if n = 0x17D2 then some (-1, none) else none
      | consonant => if n = 0x2D7F then some (1, some linkedConsonant) else none
      | joinedConsonant =>
        if n = 0x2D7F then some (1, some linkedConsonant)
        else if isConsonant n then some (0, none)
        else none
      | linkedConsonant => if isConsonant n then some (-1, none) else none
      | tone => if 0xA4F8 ≤ n ∧ n ≤ 0xA4FB then some (0, none) else none
      | joinedRunicI => if n = 0x10C32 then some (0, none) else none
      | vowelE =>
        if n = 0x16D63 ∨ n = 0x16D69 then some (0, none)
        else if n = 0x16D67 then some (0, some vowelAi)
        else if n = 0x16D68 then some (1, some vowelE)
        else none
      | vowelAi => if n = 0x16D63 then some (0, none) else none
      | _ => none

theorem joined_joined (ending : Ending) : ending.joined.joined = ending.joined := by
  cases ending <;> rfl

end Ending

end Converge.Text
