import Converge.Text.Digits
/-!
# Numbers of double precision

Numbers that are no 64-bit integers are kept as IEEE 754 binary64 values, named by their bits so
that equality is decidable.  `Double.ofDecimal?` reads a decimal significand and exponent with one
multiplication or division by a power of ten, and `Double.text` writes the fewest digits that
stand for the same value.
-/

namespace Converge

/-- A finite number in IEEE 754 binary64. -/
structure Double where
  /-- The bits: sign, eleven of the exponent, fifty-two of the fraction. -/
  bits : UInt64
  deriving DecidableEq

namespace Double

/-! ## Magnitudes

A magnitude is the bits of a number without its sign.  As natural numbers the magnitudes are in the
order of the numbers that they stand for, without a gap where the subnormal numbers end. -/

/-- The mantissa and the power of two that a magnitude stands for. -/
def parts (magnitude : Nat) : Nat × Int :=
  let field := magnitude / Nat.pow 2 52
  let fraction := magnitude % Nat.pow 2 52
  if field = 0 then (fraction, -1074) else (Nat.pow 2 52 + fraction, (field : Int) - 1075)

/-- The integer nearest to a quotient; the even one of two that are equally near. -/
def nearest (numerator denominator : Nat) : Nat :=
  let below := numerator / denominator
  let rest := 2 * (numerator % denominator)
  if rest > denominator || (rest == denominator && below % 2 == 1) then below + 1 else below

/-- The largest `e` for which `2 ^ e` is at most a quotient of positive numbers. -/
def floorLog (numerator denominator : Nat) : Int :=
  let e : Int := (numerator.log2 : Int) - denominator.log2
  if numerator * Nat.pow 2 (-e).toNat < denominator * Nat.pow 2 e.toNat then e - 1 else e

/-- The magnitude nearest to a quotient, the even one of two; `none` past the largest double. -/
def round? (numerator denominator : Nat) : Option Nat :=
  if numerator = 0 then some 0
  else
    let power := max (floorLog numerator denominator - 52) (-1074)
    let mantissa := nearest (numerator * Nat.pow 2 (-power).toNat)
      (denominator * Nat.pow 2 power.toNat)
    -- a mantissa of fifty-four bits carries over into the next power
    let magnitude := (power + 1074).toNat * Nat.pow 2 52 + mantissa
    if magnitude < 2047 * Nat.pow 2 52 then some magnitude else none

/-- The rounded product of two magnitudes. -/
def times? (x y : Nat) : Option Nat :=
  let power := (parts x).2 + (parts y).2
  round? ((parts x).1 * (parts y).1 * Nat.pow 2 power.toNat) (Nat.pow 2 (-power).toNat)

/-- The rounded quotient of two magnitudes. -/
def over? (x y : Nat) : Option Nat :=
  let power := (parts x).2 - (parts y).2
  round? ((parts x).1 * Nat.pow 2 power.toNat) ((parts y).1 * Nat.pow 2 (-power).toNat)

/-! ## Reading -/

/-- The power of ten nearest to `10 ^ k`; exact for the first twenty-three of them. -/
def tenTo? (k : Nat) : Option Nat :=
  round? (Nat.pow 10 k) 1

/-- Multiplies by a power of ten, in steps of at most `10 ^ 308`; `none` past the largest double. -/
def scale? : Nat → Nat → Int → Option Nat
  | 0, x, _ => some x
  | steps + 1, x, exponent =>
    if exponent.natAbs ≤ 308 then do
      let ten ← tenTo? exponent.natAbs
      if exponent ≥ 0 then times? x ten else over? x ten
    else if x = 0 then some x
    else if exponent ≥ 0 then none
    else do scale? steps (← over? x (← tenTo? 308)) (exponent + 308)

/-- The number `significand * 10 ^ exponent`, rounded after each step of the scaling; `none` when
it is past the largest double.  Three steps down bring any 64-bit significand to zero. -/
def ofDecimal? (negative : Bool) (significand : UInt64) (exponent : Int) : Option Double := do
  let magnitude ← scale? 4 (← round? significand.toNat 1) exponent
  return ⟨.ofNat ((if negative then Nat.pow 2 63 else 0) + magnitude)⟩

/-- Zero with a sign. -/
def zero (negative : Bool) : Double :=
  ⟨if negative then 0x8000000000000000 else 0⟩

/-! ## Writing -/

/-- Takes the zeros off the end of a number, counting them into an exponent. -/
def stripZeros : Nat → Nat → Int → Nat × Int
  | 0, digits, exponent => (digits, exponent)
  | steps + 1, digits, exponent =>
    if digits != 0 && digits % 10 == 0 then stripZeros steps (digits / 10) (exponent + 1)
    else (digits, exponent)

/-- The least `j` from `j` on with `numerator * 10 ^ j` at least `denominator`. -/
def leadingZeros : Nat → Nat → Nat → Nat → Nat
  | 0, _, _, j => j
  | steps + 1, numerator, denominator, j =>
    if numerator * Nat.pow 10 j ≥ denominator then j
    else leadingZeros steps numerator denominator (j + 1)

/-- The decimal point's place of a positive number `mantissa * 2 ^ power`: the exponent of its
first digit. -/
def firstExponent (mantissa : Nat) (power : Int) : Int :=
  let numerator := mantissa * Nat.pow 2 power.toNat
  let denominator := Nat.pow 2 (-power).toNat
  if numerator ≥ denominator then (Text.decimal (numerator / denominator)).length - 1
  else -(leadingZeros 400 numerator denominator 1 : Int)

/-- Of the two neighbours of `mantissa * 2 ^ power` on the grid of `10 ^ grid`, the nearer one that
still rounds to the number.  The numbers that round to it reach half a unit up and half a unit
down, or a quarter down where the unit below is half as long (`narrow`); both ends belong to it
when the mantissa is even. -/
def neighbour? (mantissa : Nat) (power : Int) (narrow : Bool) (grid : Int) : Option Nat :=
  let scale := Nat.pow 2 (power - 2).toNat * Nat.pow 10 (-grid).toNat
  let unit := Nat.pow 2 (2 - power).toNat * Nat.pow 10 grid.toNat
  let value := 4 * mantissa * scale
  let low := (4 * mantissa - (if narrow then 1 else 2)) * scale
  let high := (4 * mantissa + 2) * scale
  let rounds (d : Nat) : Bool :=
    if mantissa % 2 == 0 then low ≤ d * unit && d * unit ≤ high
    else low < d * unit && d * unit < high
  let below := value / unit
  let above := below + 1
  match rounds below && below != 0, rounds above with
  | true, true =>
    let down := value - below * unit
    let up := above * unit - value
    if down < up then some below
    else if up < down then some above
    else if below % 2 == 0 then some below else some above
  | true, false => some below
  | false, true => some above
  | false, false => none

/-- Tries grids of more and more digits. -/
def shortestFrom (mantissa : Nat) (power : Int) (narrow : Bool) (first : Int) :
    Nat → Nat → Nat × Int
  | 0, _ => (mantissa, power)
  | steps + 1, digits =>
    let grid := first - digits
    match neighbour? mantissa power narrow grid with
    | some d => stripZeros 20 d grid
    | none => shortestFrom mantissa power narrow first steps (digits + 1)

/-- The fewest digits that read back as `mantissa * 2 ^ power`, and their exponent. -/
def shortest (mantissa : Nat) (power : Int) (narrow : Bool) : Nat × Int :=
  shortestFrom mantissa power narrow (firstExponent mantissa power) 18 0

/-- The digits of a positive number are not zero. -/
theorem pos_of_neighbour? {mantissa : Nat} {power : Int} {narrow : Bool} {grid : Int} {d : Nat}
    (h : neighbour? mantissa power narrow grid = some d) : 0 < d := by
  unfold neighbour? at h
  extract_lets scale unit value low high rounds below above at h
  have habove : some above = some d → 0 < d := fun hd => Option.some.inj hd ▸ Nat.succ_pos below
  have hbelow : ∀ {b : Bool}, (b && below != 0) = true → some below = some d → 0 < d := by
    intro b hb hd
    simp only [Bool.and_eq_true, bne_iff_ne] at hb
    exact Option.some.inj hd ▸ Nat.pos_of_ne_zero hb.2
  split at h
  · next hdown _ =>
    -- the nearer one, or of two that are equally near the even one
    split at h
    · exact hbelow hdown h
    · split at h
      · exact habove h
      · split at h
        · exact hbelow hdown h
        · exact habove h
  · next hdown _ => exact hbelow hdown h
  · exact habove h
  · cases h

theorem stripZeros_pos (steps : Nat) {digits : Nat} (h : 0 < digits) (exponent : Int) :
    0 < (stripZeros steps digits exponent).1 := by
  induction steps generalizing digits exponent with
  | zero => exact h
  | succ steps ih =>
    rw [stripZeros]
    split
    · next hstrip =>
      simp only [Bool.and_eq_true, beq_iff_eq] at hstrip
      exact ih (by omega) _
    · exact h

theorem shortestFrom_pos {mantissa : Nat} (h : 0 < mantissa) (power : Int) (narrow : Bool)
    (first : Int) (steps digits : Nat) :
    0 < (shortestFrom mantissa power narrow first steps digits).1 := by
  induction steps generalizing digits with
  | zero => exact h
  | succ steps ih =>
    rw [shortestFrom]
    split
    · next hneighbour => exact stripZeros_pos 20 (pos_of_neighbour? hneighbour) _
    · exact ih _

theorem shortest_pos {mantissa : Nat} (h : 0 < mantissa) (power : Int) (narrow : Bool) :
    0 < (shortest mantissa power narrow).1 :=
  shortestFrom_pos h power narrow _ 18 0

/-- How a decimal number is written: positionally while its first digit stands between `10 ^ -5`
and `10 ^ 15`, else with an exponent and its sign. -/
def layOut (digits : List Char) (exponent : Int) : List Char :=
  let first := (digits.length : Int) + exponent - 1
  if -5 ≤ first && first ≤ 15 then
    if exponent ≥ 0 then digits ++ List.replicate exponent.toNat '0' ++ ['.', '0']
    else if first ≥ 0 then digits.take (first.toNat + 1) ++ '.' :: digits.drop (first.toNat + 1)
    else '0' :: '.' :: (List.replicate (-first - 1).toNat '0' ++ digits)
  else
    let mantissa := match digits with
      | [] => []
      | [d] => [d]
      | d :: rest => d :: '.' :: rest
    let sign := if first ≥ 0 then '+' else '-'
    mantissa ++ 'e' :: sign :: Text.decimal first.natAbs

/-- Whether a number, or zero, has a minus sign. -/
def isNegative (x : Double) : Bool :=
  x.bits.toNat ≥ Nat.pow 2 63

/-- The bits of a number without its sign. -/
def magnitude (x : Double) : Nat :=
  x.bits.toNat % Nat.pow 2 63

/-- The fewest digits that stand for a number apart from its sign, and their exponent; `none` for
zero. -/
def decimal? (x : Double) : Option (Nat × Int) :=
  let (mantissa, power) := parts x.magnitude
  if mantissa = 0 then none
  else some (shortest mantissa power (mantissa == Nat.pow 2 52 && power > -1074))

theorem pos_of_decimal? {x : Double} {digits : Nat} {exponent : Int}
    (h : x.decimal? = some (digits, exponent)) : 0 < digits := by
  unfold decimal? at h
  dsimp only at h
  split at h
  · cases h
  · next hmantissa =>
    have hpos := shortest_pos (Nat.pos_of_ne_zero hmantissa) (parts x.magnitude).2
      ((parts x.magnitude).1 == Nat.pow 2 52 && (parts x.magnitude).2 > -1074)
    rwa [Option.some.inj h] at hpos

/-- The text of a number: the fewest digits that stand for it, always with a point or an
exponent. -/
def text (x : Double) : List Char :=
  (if x.isNegative then ['-'] else []) ++
    match x.decimal? with
    | none => ['0', '.', '0']
    | some (digits, exponent) => layOut (Text.decimal digits) exponent

/-- Reading rounds the power of ten and then the product, so a text and the text of the number that
is read from it may differ. -/
example :
    (ofDecimal? false 5 32).map (String.ofList <| text ·) = some "5.0000000000000004e+32" := by
  decide +kernel

end Double

end Converge
