import Converge.Proofs.Numeral
import Converge.Proofs.Rounding
/-!
# The text of a double

A double's text need not stand for that double, but it always stands for some: the fewest digits
lie at most half a unit above the number (`shortest_le`), reading takes in no more than the digits
say (`Literal.real?_isSome`), and what is left between the two is enough for the roundings, but for
the three largest doubles.  Main statement: the literal of a finite double stands for a finite
double (`exists_number?_literal`).
-/

namespace Converge

/-! ## Reading a literal as a double -/

namespace Json.Literal

open Text (number)

/-- Digits before the point that fit are all taken in. -/
theorem takeWhole_eq (digits : List Char) (intake : Intake) (hdropped : intake.dropped = 0)
    (h : intake.significand * 10 ^ digits.length + number digits < Text.wordLimit) :
    takeWhole digits intake =
      { intake with significand := intake.significand * 10 ^ digits.length + number digits } := by
  induction digits generalizing intake with
  | nil => simp [takeWhole, number]
  | cons c rest ih =>
    have hnext : intake.significand * 10 ^ (c :: rest).length + number (c :: rest) =
        (intake.significand * 10 + (c.toNat - 48)) * 10 ^ rest.length + number rest := by
      rw [Text.number_cons, List.length_cons, pow_succ]
      ring
    rw [hnext] at h ⊢
    have hfits : intake.significand * 10 + (c.toNat - 48) < Text.wordLimit :=
      lt_of_le_of_lt (le_add_right (Nat.le_mul_of_pos_right _ (by positivity))) h
    have hcond : ¬ (decide (intake.dropped > 0) ||
        decide (intake.significand * 10 + (c.toNat - 48) ≥ Text.wordLimit)) = true := by
      simp [hdropped, hfits]
    rw [takeWhole, if_neg hcond]
    exact ih { intake with significand := intake.significand * 10 + (c.toNat - 48) } hdropped h

/-- What is taken in after the point is not more than the digits say. -/
theorem takeFraction_spec (digits : List Char) (intake : Intake)
    (h : intake.significand < Text.wordLimit) :
    (takeFraction digits intake).dropped = intake.dropped ∧
      (takeFraction digits intake).significand < Text.wordLimit ∧
      ∃ rest, (takeFraction digits intake).scaled + rest = intake.scaled + digits.length ∧
        (takeFraction digits intake).significand * 10 ^ rest ≤
          intake.significand * 10 ^ digits.length + number digits := by
  induction digits generalizing intake with
  | nil => exact ⟨rfl, h, 0, rfl, by simp [takeFraction, number]⟩
  | cons c rest ih =>
    rw [takeFraction]
    split
    · refine ⟨rfl, h, rest.length + 1, by simp, ?_⟩
      exact Nat.le_add_right _ _
    · next hfits =>
      obtain ⟨hdropped, hword, more, hscaled, hle⟩ :=
        ih ⟨intake.significand * 10 + (c.toNat - 48), intake.dropped, intake.scaled + 1⟩
          (Nat.not_le.1 hfits)
      refine ⟨hdropped, hword, more, ?_, le_trans hle (le_of_eq ?_)⟩
      · rw [hscaled, List.length_cons]
        dsimp only
        omega
      · rw [Text.number_cons, List.length_cons, pow_succ]
        ring

/-- The exponent of a literal; zero if it has none. -/
def power (l : Literal) : Int :=
  match l.exponent with
  | none => 0
  | some (down, digits) =>
    let size := (Text.natOfDigits? 10 digits).getD 0
    if down then -size else size

/-- The number that a literal denotes, apart from its sign. -/
def value (l : Literal) : ℚ :=
  number (l.digits ++ l.fraction.getD []) * 10 ^ (l.power - (l.fraction.getD []).length)

/-- A literal is read as a double if its digits before the point fit into 64 bits and it is not too
large. -/
theorem real?_isSome {l : Literal} (hwhole : number l.digits < Text.wordLimit)
    (hpower : l.power < 2 ^ 31) (hvalue : l.value ≤ Double.readable) : l.real?.isSome := by
  have hintake : takeWhole l.digits ⟨0, 0, 0⟩ = ⟨number l.digits, 0, 0⟩ := by
    have := takeWhole_eq l.digits ⟨0, 0, 0⟩ rfl (by simpa using hwhole)
    simpa using this
  obtain ⟨hdropped, hword, rest, hscaled, hle⟩ := takeFraction_spec (l.fraction.getD [])
    ⟨number l.digits, 0, 0⟩ hwhole
  set intake := takeFraction (l.fraction.getD []) ⟨number l.digits, 0, 0⟩ with htake
  rw [← Text.number_append] at hle
  have hsignificand : intake.significand.toUInt64.toNat = intake.significand :=
    Nat.mod_eq_of_lt hword
  -- the digits that were left out count for more than nothing
  have hread : (intake.significand : ℚ) * 10 ^ (l.power - intake.scaled) ≤ Double.readable := by
    have hdigits : ((l.fraction.getD []).length : Int) = intake.scaled + rest := by
      have : intake.scaled + rest = (l.fraction.getD []).length := by simpa using hscaled
      exact_mod_cast this.symm
    have hnat : (intake.significand : ℚ) * 10 ^ rest ≤
        number (l.digits ++ l.fraction.getD []) := by exact_mod_cast hle
    refine le_trans ?_ hvalue
    rw [value, hdigits, show l.power - intake.scaled =
      rest + (l.power - (intake.scaled + rest)) by ring, zpow_add₀ (by norm_num), zpow_natCast,
      ← mul_assoc]
    gcongr
  have hdecimal : ∀ exponent : Int, exponent = l.power - intake.scaled →
      (Double.ofDecimal? l.negative intake.significand.toUInt64 exponent).isSome := by
    rintro _ rfl
    exact Double.ofDecimal?_isSome l.negative (by rwa [hsignificand])
  have hstart : (intake.dropped : Int) - intake.scaled = -intake.scaled := by
    rw [hdropped]
    ring
  unfold real?
  dsimp only
  rw [hintake, ← htake, hstart]
  unfold power at hdecimal hpower
  cases hexponent : l.exponent with
  | none =>
    simp only [hexponent] at hdecimal
    exact hdecimal _ (by ring)
  | some exponent =>
    obtain ⟨down, digits⟩ := exponent
    simp only [hexponent] at hdecimal hpower ⊢
    have hpow : Nat.pow 2 31 = 2 ^ 31 := rfl
    -- an exponent that is too long is no positive one
    cases down with
    | true =>
      split
      · simp
      · exact hdecimal _ (by simp only [if_true]; ring)
    | false =>
      simp only [Bool.false_eq_true, if_false] at hdecimal hpower ⊢
      rw [if_neg (by omega)]
      exact hdecimal _ (by ring)

theorem isFinite_of_real? {l : Literal} {x : Double} (h : l.real? = some x) : x.IsFinite := by
  unfold real? at h
  dsimp only at h
  split at h
  · exact Double.isFinite_of_ofDecimal? h
  · split at h
    · split at h
      · cases h
      · cases h
        exact Double.isFinite_zero _
    · exact Double.isFinite_of_ofDecimal? h

/-- A double that a literal stands for is finite. -/
theorem isFinite_of_number? {l : Literal} {x : Double} (h : l.number? = some (.real x)) :
    x.IsFinite := by
  unfold number? at h
  dsimp only at h
  split at h
  · cases h
  · split at h
    · cases h
    · obtain ⟨x', hreal, heq⟩ := Option.map_eq_some_iff.1 h
      cases heq
      exact isFinite_of_real? hreal

end Json.Literal

/-! ## The fewest digits -/

namespace Double

open Json (Literal)

theorem value_stripZeros (steps digits : Nat) (exponent : Int) :
    ((stripZeros steps digits exponent).1 : ℚ) * 10 ^ (stripZeros steps digits exponent).2 =
      digits * 10 ^ exponent := by
  induction steps generalizing digits exponent with
  | zero => rfl
  | succ steps ih =>
    rw [stripZeros]
    split
    · next hstrip =>
      simp only [Bool.and_eq_true, beq_iff_eq] at hstrip
      have hdigits : (digits : ℚ) = (digits / 10 : Nat) * 10 := by
        exact_mod_cast (Nat.div_mul_cancel (Nat.dvd_of_mod_eq_zero hstrip.2)).symm
      rw [ih, zpow_add_one₀ (by norm_num), hdigits]
      ring
    · rfl

/-- The unit of a grid of decimals over a quarter of the unit of a grid of doubles. -/
theorem unit_div_scale (power grid : Int) :
    ((Nat.pow 2 (2 - power).toNat * Nat.pow 10 grid.toNat : Nat) : ℚ) /
        (Nat.pow 2 (power - 2).toNat * Nat.pow 10 (-grid).toNat : Nat) =
      2 ^ (2 - power) * 10 ^ grid := by
  rw [← pow_toNat_div 2 (2 - power), ← pow_toNat_div 10 grid, neg_sub, div_mul_div_comm]
  show ((2 ^ (2 - power).toNat * 10 ^ grid.toNat : Nat) : ℚ) /
    (2 ^ (power - 2).toNat * 10 ^ (-grid).toNat : Nat) = _
  push_cast
  rfl

section

variable {mantissa : Nat} {power : Int} {narrow : Bool}

/-- A neighbour is at most half a unit above the number. -/
theorem neighbour?_le {grid : Int} {d : Nat}
    (h : neighbour? mantissa power narrow grid = some d) :
    (d : ℚ) * 10 ^ grid ≤ (mantissa + 1 / 2) * 2 ^ power := by
  have hratio := unit_div_scale power grid
  unfold neighbour? at h
  extract_lets scale unit value low high rounds below above at h
  have hscale : 0 < scale :=
    Nat.mul_pos (Nat.pow_pos (by norm_num)) (Nat.pow_pos (by norm_num))
  -- what is given rounds to the number
  have hrounds : rounds d = true := by
    split at h
    · next hdown hup =>
      have hbelow : rounds below = true := (Bool.and_eq_true _ _ ▸ hdown).1
      split at h
      · exact Option.some.inj h ▸ hbelow
      · split at h
        · exact Option.some.inj h ▸ hup
        · split at h
          · exact Option.some.inj h ▸ hbelow
          · exact Option.some.inj h ▸ hup
    · next hdown _ => exact Option.some.inj h ▸ (Bool.and_eq_true _ _ ▸ hdown).1
    · next hup => exact Option.some.inj h ▸ hup
    · cases h
  have hhigh : d * unit ≤ (4 * mantissa + 2) * scale := by
    show d * unit ≤ high
    simp only [rounds] at hrounds
    split at hrounds <;> simp only [Bool.and_eq_true, decide_eq_true_eq] at hrounds <;> omega
  have hscaleq : (0 : ℚ) < scale := by exact_mod_cast hscale
  have hunits : (d : ℚ) * (2 ^ (2 - power) * 10 ^ grid) ≤ 4 * mantissa + 2 := by
    have : (d : ℚ) * unit ≤ (4 * mantissa + 2) * scale := by exact_mod_cast hhigh
    rw [← hratio, ← mul_div_assoc, div_le_iff₀ hscaleq]
    exact this
  have hgrid : (2 : ℚ) ^ (2 - power) = 4 / 2 ^ power := by
    rw [zpow_sub₀ (by norm_num)]
    norm_num
  have hpow : (0 : ℚ) < 2 ^ power := by positivity
  rw [hgrid] at hunits
  calc (d : ℚ) * 10 ^ grid = d * (4 / 2 ^ power * 10 ^ grid) * 2 ^ power / 4 := by field_simp
    _ ≤ (4 * mantissa + 2) * 2 ^ power / 4 := by gcongr
    _ = (mantissa + 1 / 2) * 2 ^ power := by ring

/-- On a grid finer than half a unit there is a neighbour. -/
theorem neighbour?_isSome (mantissa : Nat) (narrow : Bool) {power grid : Int}
    (h : (10 : ℚ) ^ grid < 2 ^ (power - 1)) :
    (neighbour? mantissa power narrow grid).isSome := by
  have hratio := unit_div_scale power grid
  unfold neighbour?
  extract_lets scale unit value low high rounds below above
  have hscale : 0 < scale :=
    Nat.mul_pos (Nat.pow_pos (by norm_num)) (Nat.pow_pos (by norm_num))
  have hunit : 0 < unit :=
    Nat.mul_pos (Nat.pow_pos (by norm_num)) (Nat.pow_pos (by norm_num))
  have hfine : unit < 2 * scale := by
    have hscaleq : (0 : ℚ) < scale := by exact_mod_cast hscale
    have hlt : (unit : ℚ) / scale < 2 := by
      calc (unit : ℚ) / scale = 2 ^ (2 - power) * 10 ^ grid := hratio
        _ < 2 ^ (2 - power) * 2 ^ (power - 1) := by gcongr
        _ = 2 := by
          rw [← zpow_add₀ (by norm_num), show 2 - power + (power - 1) = 1 by ring, zpow_one]
    rw [div_lt_iff₀ hscaleq] at hlt
    exact_mod_cast hlt
  -- the next one up is at most a unit of the grid away
  have hbelow : below * unit ≤ value := Nat.div_mul_le_self value unit
  have habove : value < above * unit := by
    have := Nat.div_add_mod value unit
    have := Nat.mod_lt value hunit
    show value < (value / unit + 1) * unit
    rw [Nat.add_mul, Nat.mul_comm (value / unit)]
    omega
  have hhigh : above * unit < high := by
    have : above * unit = below * unit + unit := by
      show (below + 1) * unit = _
      ring
    have : high = value + 2 * scale := by
      show (4 * mantissa + 2) * scale = 4 * mantissa * scale + 2 * scale
      ring
    omega
  have hlow : low ≤ value := Nat.mul_le_mul_right scale (Nat.sub_le _ _)
  have hup : rounds above = true := by
    simp only [rounds]
    split <;> simp only [Bool.and_eq_true, decide_eq_true_eq] <;> omega
  rw [hup]
  cases rounds below && below != 0
  · rfl
  · dsimp only
    split
    · rfl
    · split
      · rfl
      · split <;> rfl

/-- The search ends with a neighbour, or it has seen that there is none. -/
theorem shortestFrom_cases (first : Int) (steps digits : Nat) :
    (((shortestFrom mantissa power narrow first steps digits).1 : ℚ) *
        10 ^ (shortestFrom mantissa power narrow first steps digits).2 ≤
      (mantissa + 1 / 2) * 2 ^ power) ∨
    (shortestFrom mantissa power narrow first steps digits = (mantissa, power) ∧
      ∀ n, digits ≤ n → n < digits + steps →
        neighbour? mantissa power narrow (first - n) = none) := by
  induction steps generalizing digits with
  | zero => exact .inr ⟨rfl, fun n hlow hhigh => by omega⟩
  | succ steps ih =>
    rw [shortestFrom]
    cases hneighbour : neighbour? mantissa power narrow (first - digits) with
    | some d =>
      refine .inl ?_
      dsimp only
      rw [value_stripZeros]
      exact neighbour?_le hneighbour
    | none =>
      dsimp only
      rcases ih (digits + 1) with hle | ⟨heq, hnone⟩
      · exact .inl hle
      · refine .inr ⟨heq, fun n hlow hhigh => ?_⟩
        rcases Nat.eq_or_lt_of_le hlow with rfl | hlt
        · exact hneighbour
        · exact hnone n hlt (by omega)

/-- The first digit of a whole number stands where its length says. -/
theorem firstExponent_eq (hpos : 0 < mantissa) (hpower : 0 ≤ power) :
    firstExponent mantissa power =
      ((Text.decimal (mantissa * 2 ^ power.toNat)).length - 1 : Nat) := by
  have hnumerator : 0 < mantissa * 2 ^ power.toNat := by positivity
  have hlength : 0 < (Text.decimal (mantissa * 2 ^ power.toNat)).length :=
    List.length_pos_iff.2 (Text.decimal_ne_nil _)
  have hden : (-power).toNat = 0 := by omega
  have hpow : Nat.pow 2 power.toNat = 2 ^ power.toNat := rfl
  have hone : Nat.pow 2 0 = 1 := rfl
  unfold firstExponent
  simp only [hden, hpow, hone, Nat.div_one]
  rw [if_pos (Nat.succ_le_of_lt hnumerator)]
  omega

/-- The fewest digits lie at most half a unit above the number, if the unit is not below one. -/
theorem shortest_le (power : Int) (narrow : Bool) (hpos : 0 < mantissa)
    (hlt : mantissa < 2 ^ 53) :
    ((shortest mantissa power narrow).1 : ℚ) * 10 ^ (shortest mantissa power narrow).2 ≤
      max (((mantissa : ℚ) + 1 / 2) * 2 ^ power) mantissa := by
  unfold shortest
  rcases shortestFrom_cases (firstExponent mantissa power) 18 0 with hle | ⟨heq, hnone⟩
  · exact le_max_of_le_left hle
  rw [heq]
  rcases Int.le_total power 0 with hpower | hpower
  · exact le_max_of_le_right (mul_le_of_le_one_right (by positivity)
      (zpow_le_one_of_nonpos₀ (by norm_num) hpower))
  · -- seventeen digits behind the first one are fine enough
    have hten : (10 : ℚ) ^ firstExponent mantissa power ≤ mantissa * 2 ^ power := by
      have hle := Text.pow_length_decimal_le
        (show 0 < mantissa * 2 ^ power.toNat by positivity)
      have hleq : (10 : ℚ) ^ ((Text.decimal (mantissa * 2 ^ power.toNat)).length - 1) ≤
          mantissa * 2 ^ power.toNat := by exact_mod_cast hle
      rw [firstExponent_eq hpos hpower, zpow_natCast]
      refine le_trans hleq (le_of_eq ?_)
      rw [← zpow_natCast, Int.toNat_of_nonneg hpower]
    have hfine : (10 : ℚ) ^ (firstExponent mantissa power - (17 : Nat)) < 2 ^ (power - 1) := by
      have hmantissa : (mantissa : ℚ) < 2 ^ 53 := by exact_mod_cast hlt
      have hpow : (0 : ℚ) < 2 ^ power := by positivity
      rw [zpow_sub₀ (by norm_num), zpow_sub_one₀ (by norm_num), div_lt_iff₀ (by positivity)]
      calc (10 : ℚ) ^ firstExponent mantissa power ≤ mantissa * 2 ^ power := hten
        _ < 2 ^ 53 * 2 ^ power := by gcongr
        _ ≤ 2 ^ power * 2⁻¹ * 10 ^ ((17 : Nat) : Int) := by
          rw [zpow_natCast]
          nlinarith
    have hsome := neighbour?_isSome mantissa narrow hfine
    rw [hnone 17 (by norm_num) (by norm_num)] at hsome
    cases hsome

end

/-! ## The literal of a double -/

theorem power_of_first {first : Int} (negative : Bool) (digits : List Char)
    (fraction : Option (List Char)) :
    Literal.power ⟨negative, digits, fraction, some (first < 0, Text.decimal first.natAbs)⟩ =
      first := by
  unfold Literal.power
  simp only [Text.natOfDigits?_decimal, Option.getD_some, decide_eq_true_eq]
  split <;> omega

/-- Digits that are laid out keep their value. -/
theorem value_layOutLiteral (negative : Bool) (digits : List Char) (exponent : Int)
    (hdigits : digits ≠ []) :
    (layOutLiteral negative digits exponent).value = Text.number digits * 10 ^ exponent := by
  have hlength : 0 < digits.length := List.length_pos_iff.2 hdigits
  unfold layOutLiteral
  extract_lets first
  split
  · split
    · next hexponent =>
      obtain ⟨zeros, rfl⟩ := Int.eq_ofNat_of_zero_le hexponent
      simp only [Literal.value, Literal.power, Option.getD_some, Text.number_append,
        Int.toNat_natCast, Text.number_zeros, List.length_replicate, List.length_singleton]
      rw [show Text.number ['0'] = 0 from rfl, zero_sub, zpow_neg]
      simp only [zpow_natCast]
      push_cast
      field_simp
      ring
    · split
      · next hnegative hfirst =>
        have hfraction : ((digits.drop (first.toNat + 1)).length : Int) = -exponent := by
          rw [List.length_drop]
          omega
        simp only [Literal.value, Literal.power, Option.getD_some, List.take_append_drop,
          hfraction, zero_sub, neg_neg]
      · next hnegative hfirst =>
        have hfraction : ((List.replicate (-first - 1).toNat '0' ++ digits).length : Int) =
            -exponent := by
          rw [List.length_append, List.length_replicate]
          omega
        simp only [Literal.value, Literal.power, Option.getD_some, hfraction, zero_sub, neg_neg,
          Text.number_append, Text.number_zeros]
        rw [show Text.number ['0'] = 0 from rfl, Nat.zero_mul, Nat.zero_mul, Nat.zero_add,
          Nat.zero_add]
  · have hfraction : ((if digits.length ≤ 1 then none else some (digits.drop 1)).getD
        ([] : List Char)) = digits.drop 1 := by
      split
      · next hshort => rw [List.drop_eq_nil_of_le hshort, Option.getD_none]
      · rfl
    have hexponent : first - (digits.drop 1).length = exponent := by
      rw [List.length_drop]
      omega
    rw [Literal.value, power_of_first]
    simp only [hfraction, List.take_append_drop, hexponent]

/-- The digits before the point of digits that are laid out fit into 64 bits. -/
theorem number_digits_layOutLiteral (negative : Bool) {digits : List Char} (h : IsDigits digits)
    (exponent : Int) :
    Text.number (layOutLiteral negative digits exponent).digits < Text.wordLimit := by
  have hshort : ∀ {whole : List Char}, (∀ c ∈ whole, Text.isDigit c) →
      whole.length ≤ 16 → Text.number whole < Text.wordLimit := fun hwhole hlength =>
    calc Text.number _ < 10 ^ _ := Text.number_lt hwhole
      _ ≤ 10 ^ 16 := Nat.pow_le_pow_right (by norm_num) hlength
      _ < Text.wordLimit := by decide
  unfold layOutLiteral
  extract_lets first
  split
  · next hpositional =>
    simp only [Bool.and_eq_true, decide_eq_true_eq] at hpositional
    split
    · refine hshort (h.append_zeros _).isDigit ?_
      rw [List.length_append, List.length_replicate]
      omega
    · split
      · refine hshort (h.take _).isDigit (le_trans (List.length_take_le _ _) ?_)
        omega
      · exact hshort isDigits_zero.isDigit (show ['0'].length ≤ 16 by decide)
  · exact hshort (h.take 0).isDigit (le_trans (List.length_take_le _ _) (by decide))

/-- The exponent that digits are laid out with is not that of a larger number. -/
theorem power_layOutLiteral_le (negative : Bool) {digits : List Char} (exponent : Int) :
    (layOutLiteral negative digits exponent).power ≤
      max 0 ((digits.length : Int) + exponent - 1) := by
  unfold layOutLiteral
  extract_lets first
  split
  · split
    · exact le_max_left _ _
    · split <;> exact le_max_left _ _
  · rw [power_of_first]
    exact le_max_right _ _

/-- A number is finite if its digits are, wherever they are laid out. -/
theorem real?_layOutLiteral (negative : Bool) {digits : Nat} (hpos : 0 < digits) {exponent : Int}
    (h : (digits : ℚ) * 10 ^ exponent ≤ readable) :
    (layOutLiteral negative (Text.decimal digits) exponent).real?.isSome := by
  refine Literal.real?_isSome
    (number_digits_layOutLiteral negative (.decimal digits) exponent) ?_ ?_
  · refine lt_of_le_of_lt (power_layOutLiteral_le negative exponent) (max_lt (by norm_num) ?_)
    -- the first digit's place is that of a readable number
    have hlength : 0 < (Text.decimal digits).length :=
      List.length_pos_iff.2 (Text.decimal_ne_nil _)
    have hten : (10 : ℚ) ^ ((Text.decimal digits).length - 1) ≤ digits := by
      exact_mod_cast Text.pow_length_decimal_le hpos
    have hplace : (10 : ℚ) ^ (((Text.decimal digits).length : Int) + exponent - 1) <
        10 ^ (309 : Int) := by
      calc (10 : ℚ) ^ (((Text.decimal digits).length : Int) + exponent - 1)
          = 10 ^ ((Text.decimal digits).length - 1) * 10 ^ exponent := by
            rw [← zpow_natCast, ← zpow_add₀ (by norm_num)]
            congr 1
            omega
        _ ≤ digits * 10 ^ exponent := by gcongr
        _ ≤ readable := h
        _ < 10 ^ (309 : Int) := by exact_mod_cast readable_lt
    have := (zpow_lt_zpow_iff_right₀ (by norm_num)).1 hplace
    omega
  · rw [value_layOutLiteral _ _ _ (Text.decimal_ne_nil digits), Text.number_decimal]
    exact h

theorem parts_spec (magnitude : Nat) (h : magnitude < magnitudeLimit) :
    (parts magnitude).1 < 2 ^ 53 ∧ (parts magnitude).2 ≤ 971 ∧
      ((parts magnitude).2 = 971 → magnitude = 2045 * 2 ^ 52 + (parts magnitude).1) := by
  have hpow : Nat.pow 2 52 = 2 ^ 52 := rfl
  have hlimit : magnitudeLimit = 2047 * 2 ^ 52 := rfl
  unfold parts
  simp only [hpow]
  split
  · simp only
    omega
  · simp only
    omega

/-- All but the three largest doubles are so far from the end that their digits are readable. -/
theorem digits_le_readable {x : Double} (hsmall : x.magnitude < magnitudeLimit - 3)
    {digits : Nat} {exponent : Int} (h : x.decimal? = some (digits, exponent)) :
    (digits : ℚ) * 10 ^ exponent ≤ readable := by
  have hlimit : magnitudeLimit = 2047 * 2 ^ 52 := rfl
  obtain ⟨hmantissa, hpower, htop⟩ := parts_spec x.magnitude (by omega)
  unfold decimal? at h
  dsimp only at h
  split at h
  · cases h
  next hzero =>
  have hle := shortest_le (parts x.magnitude).2
    ((parts x.magnitude).1 == Nat.pow 2 52 && (parts x.magnitude).2 > -1074)
    (Nat.pos_of_ne_zero hzero) hmantissa
  rw [Option.some.inj h] at hle
  refine le_trans hle (max_le ?_ ?_)
  · rw [readable]
    rcases Int.lt_or_le (parts x.magnitude).2 971 with hlt | hge
    · have hmantissaq : ((parts x.magnitude).1 : ℚ) + 1 ≤ 2 ^ 53 := by exact_mod_cast hmantissa
      have hpowerq : (2 : ℚ) ^ (parts x.magnitude).2 ≤ 2 ^ 970 := by
        rw [← zpow_natCast]
        exact zpow_le_zpow_right₀ (by norm_num) (by omega)
      calc ((parts x.magnitude).1 + 1 / 2 : ℚ) * 2 ^ (parts x.magnitude).2
          ≤ (2 ^ 54 - 7) * 2 ^ (parts x.magnitude).2 := by
            gcongr
            linarith
        _ ≤ (2 ^ 54 - 7) * 2 ^ 970 := mul_le_mul_of_nonneg_left hpowerq (by norm_num)
    · have heq : (parts x.magnitude).2 = 971 := by omega
      have hmantissaq : ((parts x.magnitude).1 : ℚ) + 4 ≤ 2 ^ 53 := by
        have := htop heq
        have : (parts x.magnitude).1 + 4 ≤ 2 ^ 53 := by omega
        exact_mod_cast this
      rw [heq, show (971 : Int) = (970 : Nat) + 1 from rfl, zpow_add_one₀ (by norm_num),
        zpow_natCast, mul_comm ((2 : ℚ) ^ 970), ← mul_assoc]
      gcongr
      linarith
  · have hmantissaq : ((parts x.magnitude).1 : ℚ) ≤ 2 ^ 53 := by exact_mod_cast hmantissa.le
    calc ((parts x.magnitude).1 : ℚ) ≤ 2 ^ 53 := hmantissaq
      _ ≤ 2 ^ 54 - 7 := by norm_num
      _ ≤ (2 ^ 54 - 7) * 2 ^ 970 :=
        le_mul_of_one_le_right (by norm_num) (one_le_pow₀ (by norm_num))

/-- The digits of the three largest doubles are read as well. -/
theorem real?_largest : ∀ negative : Bool, ∀ below < 3,
    (layOutLiteral negative
      (Text.decimal (shortestFrom (2 ^ 53 - 1 - below) 971 false 308 18 0).1)
      (shortestFrom (2 ^ 53 - 1 - below) 971 false 308 18 0).2).real?.isSome := by
  decide +kernel

theorem decimal?_largest {x : Double} {below : Nat} (hbelow : below < 3)
    (h : x.magnitude = magnitudeLimit - 1 - below) :
    x.decimal? = some (shortestFrom (2 ^ 53 - 1 - below) 971 false 308 18 0) := by
  have hpow : Nat.pow 2 52 = 2 ^ 52 := rfl
  have hparts : parts x.magnitude = (2 ^ 53 - 1 - below, 971) := by
    have hfield : x.magnitude / 2 ^ 52 = 2046 := by
      rw [h, magnitudeLimit]
      omega
    have hrest : x.magnitude % 2 ^ 52 = 2 ^ 52 - 1 - below := by
      rw [h, magnitudeLimit]
      omega
    simp only [parts, hpow, hfield, hrest]
    rw [if_neg (by norm_num)]
    congr 1
    omega
  have hfirst : firstExponent (2 ^ 53 - 1 - below) 971 = 308 := by
    have hpos : 0 < (2 ^ 53 - 1 - below) * 2 ^ (971 : Int).toNat :=
      Nat.mul_pos (by omega) (by positivity)
    -- between two powers of ten
    have hlow : 10 ^ 308 ≤ (2 ^ 53 - 1 - below) * 2 ^ (971 : Int).toNat :=
      le_trans (by decide +kernel : 10 ^ 308 ≤ (2 ^ 53 - 3) * 2 ^ (971 : Int).toNat)
        (Nat.mul_le_mul_right _ (by omega))
    have hhigh : (2 ^ 53 - 1 - below) * 2 ^ (971 : Int).toNat < Nat.pow 10 309 :=
      lt_of_le_of_lt (Nat.mul_le_mul_right _ (by omega))
        (by decide +kernel : 2 ^ 53 * 2 ^ (971 : Int).toNat < Nat.pow 10 309)
    have hlong := Text.number_lt (fun _ => Text.isDigit_of_mem_decimal
      (n := (2 ^ 53 - 1 - below) * 2 ^ (971 : Int).toNat))
    rw [Text.number_decimal] at hlong
    have := (Nat.pow_lt_pow_iff_right (by norm_num)).1 (lt_of_le_of_lt hlow hlong)
    have := Text.length_decimal_le (by norm_num) hhigh
    rw [firstExponent_eq (by omega) (by norm_num)]
    omega
  have hnarrow : (2 ^ 53 - 1 - below == 2 ^ 52) = false := by
    rw [beq_eq_false_iff_ne]
    omega
  rw [decimal?, hparts]
  simp only [hpow, hnarrow, Bool.false_and, shortest, hfirst]
  rw [if_neg (by omega)]

theorem real?_literal {x : Double} (h : x.IsFinite) : x.literal.real?.isSome := by
  have hlimit : magnitudeLimit = 2047 * 2 ^ 52 := rfl
  have hfinite : x.magnitude < magnitudeLimit := h
  rcases Nat.lt_or_ge x.magnitude (magnitudeLimit - 3) with hsmall | hlarge
  · cases hdecimal : x.decimal? with
    | none =>
      unfold literal
      rw [hdecimal]
      refine Literal.real?_isSome (show Text.number ['0'] < Text.wordLimit by decide)
        (show (0 : Int) < 2 ^ 31 by decide) ?_
      have hzero : Literal.value ⟨x.isNegative, ['0'], some ['0'], none⟩ = 0 := by
        simp [Literal.value, Text.number]
      rw [hzero, readable]
      positivity
    | some decimal =>
      unfold literal
      rw [hdecimal]
      exact real?_layOutLiteral _ (pos_of_decimal? hdecimal) (digits_le_readable hsmall hdecimal)
  · have hbelow : magnitudeLimit - 1 - x.magnitude < 3 := by omega
    unfold literal
    rw [decimal?_largest hbelow (by omega)]
    exact real?_largest x.isNegative _ hbelow

/-- A literal of a double is not written as an integer. -/
theorem number?_literal (x : Double) : x.literal.number? = x.literal.real?.map .real := by
  have hreal : (x.literal.fraction.isNone && x.literal.exponent.isNone) = false := by
    unfold literal
    split
    · rfl
    · unfold layOutLiteral
      dsimp only
      split
      · split
        · rfl
        · split <;> rfl
      · simp
  unfold Literal.number?
  simp only [hreal, Bool.false_and, Bool.false_eq_true, if_false]

/-- The text of a finite double stands for a finite double. -/
theorem exists_number?_literal {x : Double} (h : x.IsFinite) :
    ∃ y : Double, x.literal.number? = some (.real y) ∧ y.IsFinite := by
  obtain ⟨y, hy⟩ := Option.isSome_iff_exists.1 (real?_literal h)
  refine ⟨y, ?_, Literal.isFinite_of_real? hy⟩
  rw [number?_literal, hy]
  rfl

end Double

end Converge
