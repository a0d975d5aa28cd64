import Converge.Json.Basic
/-!
# What a JSON text says

A `Tree` is the content of a text before it is taken for a value of some type: numbers are kept as
they are written, fields in their order and as often as they occur, and a string that breaks a
surrogate pair has no content.  So a reader may pass over any field without looking into it, and
whether a number, a string or a depth of nesting is acceptable is decided where it is read.
Main definitions: `Tree.value?` (free-form values) and `Literal.number?`.
-/

namespace Converge.Json

/-- A number as it is written. -/
structure Literal where
  /-- Whether a minus sign stands before it. -/
  negative : Bool
  /-- The digits before the point. -/
  digits : List Char
  /-- The digits after the point. -/
  fraction : Option (List Char)
  /-- Whether the exponent is negative, and its digits. -/
  exponent : Option (Bool × List Char)

/-- The content of a JSON text. -/
inductive Tree where
  | null
  | bool (value : Bool)
  | number (literal : Literal)
  /-- A string; `none` if it holds half a surrogate pair. -/
  | str (text : Option String)
  | arr (items : List Tree)
  | obj (fields : List (Option String × Tree))

instance : Inhabited Tree := ⟨.null⟩

/-! ## Numbers -/

namespace Literal

/-- How many digits of a number have been taken into its significand, and the significand. -/
structure Intake where
  significand : Nat
  /-- Digits that were left out because the significand would have passed 64 bits. -/
  dropped : Nat
  /-- Digits after the point that were taken in. -/
  scaled : Nat

/-- Takes in digits before the point; the first that does not fit stops the intake for good. -/
def takeWhole : List Char → Intake → Intake
  | [], intake => intake
  | c :: rest, intake =>
    let next := intake.significand * 10 + (c.toNat - 48)
    if intake.dropped > 0 || next ≥ Text.wordLimit then
      takeWhole rest { intake with dropped := intake.dropped + 1 }
    else takeWhole rest { intake with significand := next }

/-- Takes in digits after the point; all from the first that does not fit are ignored. -/
def takeFraction : List Char → Intake → Intake
  | [], intake => intake
  | c :: rest, intake =>
    let next := intake.significand * 10 + (c.toNat - 48)
    if next ≥ Text.wordLimit then intake
    else takeFraction rest { intake with significand := next, scaled := intake.scaled + 1 }

/-- The number as a double: at most 64 bits of its digits, scaled by a power of ten. -/
def real? (l : Literal) : Option Double :=
  let whole := takeWhole l.digits ⟨0, 0, 0⟩
  let intake := takeFraction (l.fraction.getD []) whole
  let start : Int := intake.dropped - intake.scaled
  let significand := intake.significand.toUInt64
  match l.exponent with
  | none => Double.ofDecimal? l.negative significand start
  | some (down, digits) =>
    let size := (Text.natOfDigits? 10 digits).getD 0
    if size ≥ Nat.pow 2 31 then
      if significand != 0 && !down then none else some (.zero l.negative)
    else Double.ofDecimal? l.negative significand (if down then start - size else start + size)

/-- The number that a literal stands for: an integer if it is written as one and fits into 64
bits, with or without a sign, else a double.  Minus zero is a double.  `none` if it is too large
for any. -/
def number? (l : Literal) : Option Json :=
  let whole := (Text.natOfDigits? 10 l.digits).getD 0
  let isInteger := l.fraction.isNone && l.exponent.isNone
  if isInteger && !l.negative && whole < Text.wordLimit then some (.int whole)
  else if isInteger && l.negative && 0 < whole && whole ≤ Nat.pow 2 63 then some (.int (-whole))
  else l.real?.map .real

end Literal

/-! ## Values -/

namespace Tree

/-- A free-form value that may be nested by `levels`: fields in ascending order of their keys, and
of several with one key the last. -/
def value? (levels : Nat) : Tree → Option Json
  | .null => some .null
  | .bool b => some (.bool b)
  | .number l => l.number?
  | .str text => text.map .str
  | .arr items =>
    match levels with
    | 0 => none
    | levels + 1 => (items? levels items).map .arr
  | .obj fields =>
    match levels with
    | 0 => none
    | levels + 1 => (fields? levels fields).map fun fields => .ofRecord (.ofList fields)
where
  /-- The values of items. -/
  items? (levels : Nat) : List Tree → Option (List Json)
    | [] => some []
    | item :: rest => do return (← item.value? levels) :: (← items? levels rest)
  /-- The values of fields. -/
  fields? (levels : Nat) : List (Option String × Tree) → Option (List (String × Json))
    | [] => some []
    | (key, item) :: rest => do
      return (← key, ← item.value? levels) :: (← fields? levels rest)

end Tree

end Converge.Json
