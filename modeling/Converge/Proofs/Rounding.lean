import Converge.Double
import Mathlib.Algebra.Order.Field.Power
import Mathlib.Algebra.Order.Field.Rat
import Mathlib.Data.Rat.Cast.Order
import Mathlib.Tactic.FieldSimp
import Mathlib.Tactic.Linarith
import Mathlib.Tactic.NormNum
import Mathlib.Tactic.Positivity
import Mathlib.Tactic.Ring
/-!
# Rounding

The value of a magnitude is a rational number (`Double.value`), and what rounding, multiplying and
scaling make of magnitudes is stated about values.  A quotient below `overflow` is rounded to a
magnitude, by at most half a unit in the last place (`round?_spec`).  Main statement: a decimal
number that is not larger than `readable`, a little below the largest double, is read as a double
(`ofDecimal?_isSome`), although three roundings stand between the two.
-/

namespace Converge.Double

/-! ## Finite numbers -/

/-- The magnitude where the finite numbers end. -/
def magnitudeLimit : Nat := 2047 * 2 ^ 52

/-- The bits are those of a number, and neither of an infinity nor of no number. -/
def IsFinite (x : Double) : Prop :=
  x.magnitude < magnitudeLimit

instance (x : Double) : Decidable x.IsFinite :=
  inferInstanceAs (Decidable (_ < _))

theorem lt_of_round? {n d magnitude : Nat} (h : round? n d = some magnitude) :
    magnitude < magnitudeLimit := by
  unfold round? at h
  split at h
  · cases h
    decide
  · dsimp only at h
    split at h
    · next hlt =>
      cases h
      exact hlt
    · cases h

theorem lt_of_scale? {steps x magnitude : Nat} {exponent : Int} (hx : x < magnitudeLimit)
    (h : scale? steps x exponent = some magnitude) : magnitude < magnitudeLimit := by
  induction steps generalizing x exponent with
  | zero =>
    cases h
    exact hx
  | succ steps ih =>
    rw [scale?] at h
    split at h
    · obtain ⟨ten, -, h⟩ := Option.bind_eq_some_iff.1 h
      split at h <;> exact lt_of_round? h
    · split at h
      · cases h
        exact hx
      · split at h
        · cases h
        · obtain ⟨ten, -, h⟩ := Option.bind_eq_some_iff.1 h
          obtain ⟨quotient, hquotient, h⟩ := Option.bind_eq_some_iff.1 h
          exact ih (lt_of_round? hquotient) h

/-- What is read is finite. -/
theorem isFinite_of_ofDecimal? {negative : Bool} {significand : UInt64} {exponent : Int}
    {x : Double} (h : ofDecimal? negative significand exponent = some x) : x.IsFinite := by
  obtain ⟨whole, hwhole, h⟩ := Option.bind_eq_some_iff.1 h
  obtain ⟨magnitude, hscale, h⟩ := Option.bind_eq_some_iff.1 h
  obtain rfl := Option.some.inj h
  have hlt : magnitude < 2047 * 2 ^ 52 := lt_of_scale? (lt_of_round? hwhole) hscale
  have hpow : Nat.pow 2 63 = 2 ^ 63 := rfl
  show (UInt64.ofNat _).toNat % 2 ^ 63 < 2047 * 2 ^ 52
  rw [UInt64.toNat_ofNat', hpow]
  split <;> omega

theorem isFinite_zero (negative : Bool) : (zero negative).IsFinite := by
  cases negative <;> decide

/-! ## Values -/

/-- The number that a magnitude stands for. -/
def value (magnitude : Nat) : ℚ :=
  (parts magnitude).1 * 2 ^ (parts magnitude).2

theorem value_zero : value 0 = 0 := by
  simp [value, parts]

theorem value_nonneg (magnitude : Nat) : 0 ≤ value magnitude := by
  unfold value
  positivity

/-- A mantissa on the grid of a power; one of fifty-four bits carries over into the next power. -/
theorem value_grid {power : Int} {mantissa : Nat} (hpower : -1074 ≤ power)
    (hle : mantissa ≤ 2 ^ 53) (hnormal : power = -1074 ∨ 2 ^ 52 ≤ mantissa) :
    value ((power + 1074).toNat * 2 ^ 52 + mantissa) = mantissa * 2 ^ power := by
  have hpow : Nat.pow 2 52 = 2 ^ 52 := rfl
  rcases Nat.lt_or_ge mantissa (2 ^ 52) with hsmall | hlarge
  · obtain rfl : power = -1074 := hnormal.resolve_right (Nat.not_le.2 hsmall)
    have hfield : mantissa / 2 ^ 52 = 0 := Nat.div_eq_of_lt hsmall
    have hrest : mantissa % 2 ^ 52 = mantissa := Nat.mod_eq_of_lt hsmall
    have hzero : (-1074 + 1074 : Int).toNat * 2 ^ 52 + mantissa = mantissa := by omega
    simp only [value, parts, hpow, hzero, hfield, hrest, if_true]
  · rcases Nat.lt_or_ge mantissa (2 ^ 53) with hlt | hge
    · have hfield : ((power + 1074).toNat * 2 ^ 52 + mantissa) / 2 ^ 52 =
          (power + 1074).toNat + 1 := by omega
      have hrest : ((power + 1074).toNat * 2 ^ 52 + mantissa) % 2 ^ 52 =
          mantissa - 2 ^ 52 := by omega
      have hmantissa : 2 ^ 52 + (mantissa - 2 ^ 52) = mantissa := by omega
      have hexponent : (((power + 1074).toNat + 1 : Nat) : Int) - 1075 = power := by omega
      simp only [value, parts, hpow, hfield, hrest, Nat.succ_ne_zero, if_false, hmantissa,
        hexponent]
    · obtain rfl : mantissa = 2 ^ 53 := Nat.le_antisymm hle hge
      have hfield : ((power + 1074).toNat * 2 ^ 52 + 2 ^ 53) / 2 ^ 52 =
          (power + 1074).toNat + 2 := by omega
      have hrest : ((power + 1074).toNat * 2 ^ 52 + 2 ^ 53) % 2 ^ 52 = 0 := by omega
      have hexponent : (((power + 1074).toNat + 2 : Nat) : Int) - 1075 = power + 1 := by omega
      simp only [value, parts, hpow, hfield, hrest, Nat.succ_ne_zero, if_false, hexponent,
        Nat.add_zero]
      rw [zpow_add_one₀ (by norm_num)]
      push_cast
      ring

/-! ## Rounding a quotient -/

/-- A power with an integer exponent stands above or below the line. -/
theorem pow_toNat_div (b : ℚ) (e : Int) : b ^ e.toNat / b ^ (-e).toNat = b ^ e := by
  rcases Int.le_total 0 e with h | h
  · have hneg : (-e).toNat = 0 := by omega
    rw [hneg, pow_zero, div_one, ← zpow_natCast, Int.toNat_of_nonneg h]
  · have hpos : e.toNat = 0 := by omega
    rw [hpos, pow_zero, one_div, ← zpow_natCast, Int.toNat_of_nonneg (by omega), ← zpow_neg,
      neg_neg]

theorem floorLog_spec {n d : Nat} (hn : 0 < n) (hd : 0 < d) :
    (2 : ℚ) ^ floorLog n d ≤ n / d ∧ (n : ℚ) / d < 2 ^ (floorLog n d + 1) := by
  have hdpos : (0 : ℚ) < d := by exact_mod_cast hd
  have hnlow : (2 : ℚ) ^ n.log2 ≤ n := by exact_mod_cast Nat.log2_self_le hn.ne'
  have hnhigh : (n : ℚ) < 2 ^ (n.log2 + 1) := by exact_mod_cast Nat.lt_log2_self
  have hdlow : (2 : ℚ) ^ d.log2 ≤ d := by exact_mod_cast Nat.log2_self_le hd.ne'
  have hdhigh : (d : ℚ) < 2 ^ (d.log2 + 1) := by exact_mod_cast Nat.lt_log2_self
  -- the difference of the logarithms is at most one too large
  set e : Int := (n.log2 : Int) - d.log2 with he
  have hscale : (2 : ℚ) ^ n.log2 = 2 ^ e * 2 ^ d.log2 := by
    rw [← zpow_natCast, ← zpow_natCast, ← zpow_add₀ (by norm_num)]
    congr 1
    omega
  have hpos : (0 : ℚ) < 2 ^ e := by positivity
  have hlow : (2 : ℚ) ^ (e - 1) ≤ n / d := by
    rw [le_div_iff₀ hdpos, zpow_sub_one₀ (by norm_num)]
    calc (2 : ℚ) ^ e * 2⁻¹ * d ≤ 2 ^ e * 2⁻¹ * 2 ^ (d.log2 + 1) := by gcongr
      _ = 2 ^ n.log2 := by rw [hscale, pow_succ]; ring
      _ ≤ n := hnlow
  have hhigh : (n : ℚ) / d < 2 ^ (e + 1) := by
    rw [div_lt_iff₀ hdpos, zpow_add_one₀ (by norm_num)]
    calc (n : ℚ) < 2 ^ (n.log2 + 1) := hnhigh
      _ = 2 ^ e * 2 * 2 ^ d.log2 := by rw [pow_succ, hscale]; ring
      _ ≤ 2 ^ e * 2 * d := by gcongr
  have hbelow : n * Nat.pow 2 (-e).toNat < d * Nat.pow 2 e.toNat ↔ (n : ℚ) / d < 2 ^ e := by
    have hden : (0 : ℚ) < 2 ^ (-e).toNat := by positivity
    rw [← pow_toNat_div 2 e, div_lt_div_iff₀ hdpos hden,
      ← Nat.cast_lt (α := ℚ)]
    show ((n * 2 ^ (-e).toNat : Nat) : ℚ) < ((d * 2 ^ e.toNat : Nat) : ℚ) ↔ _
    push_cast
    rw [mul_comm (d : ℚ)]
  unfold floorLog
  dsimp only
  rw [← he]
  split
  · next h =>
    rw [sub_add_cancel]
    exact ⟨hlow, hbelow.1 h⟩
  · next h => exact ⟨not_lt.1 fun hlt => h (hbelow.2 hlt), hhigh⟩

/-- The nearest integer is at most a half away. -/
theorem nearest_spec (n : Nat) {d : Nat} (hd : 0 < d) :
    (n : ℚ) / d - 1 / 2 ≤ nearest n d ∧ (nearest n d : ℚ) ≤ n / d + 1 / 2 := by
  have hdpos : (0 : ℚ) < d := by exact_mod_cast hd
  have hdivision := Nat.div_add_mod n d
  have hmod := Nat.mod_lt n hd
  have hbounds : 2 * n ≤ d * (2 * nearest n d) + d ∧ d * (2 * nearest n d) ≤ 2 * n + d := by
    have hdouble : d * (2 * (n / d)) = 2 * (d * (n / d)) := by ring
    unfold nearest
    dsimp only
    split
    · next h =>
      simp only [Bool.or_eq_true, decide_eq_true_eq, Bool.and_eq_true, beq_iff_eq] at h
      rw [show d * (2 * (n / d + 1)) = 2 * (d * (n / d)) + 2 * d by ring]
      omega
    · next h =>
      simp only [Bool.or_eq_true, decide_eq_true_eq, Bool.and_eq_true, beq_iff_eq, not_or] at h
      rw [hdouble]
      omega
  have hlow : (2 : ℚ) * n ≤ d * (2 * nearest n d) + d := by exact_mod_cast hbounds.1
  have hhigh : (d : ℚ) * (2 * nearest n d) ≤ 2 * n + d := by exact_mod_cast hbounds.2
  constructor
  · rw [sub_le_iff_le_add, div_le_iff₀ hdpos]
    linarith
  · rw [← sub_le_iff_le_add, le_div_iff₀ hdpos]
    linarith

/-- The least number that is rounded past the largest double. -/
def overflow : ℚ :=
  (2 ^ 54 - 1) * 2 ^ 970

theorem overflow_le : overflow ≤ 2 ^ (1024 : Int) := by
  rw [overflow, show (1024 : Int) = ((54 + 970 : Nat) : Int) from rfl, zpow_natCast, pow_add]
  gcongr
  norm_num

theorem pow_lt_overflow : (2 : ℚ) ^ 64 < overflow :=
  calc (2 : ℚ) ^ 64 ≤ 2 ^ 970 := pow_le_pow_right₀ (by norm_num) (by norm_num)
    _ < overflow := lt_mul_of_one_lt_left (by positivity) (by norm_num)

theorem ten_pow_lt_overflow : (10 : ℚ) ^ 308 < overflow := by
  have h : 10 ^ 308 < 18014398509481983 * 2 ^ 970 := by decide +kernel
  calc (10 : ℚ) ^ 308 < 18014398509481983 * 2 ^ 970 := by exact_mod_cast h
    _ = overflow := by norm_num [overflow]

/-- A quotient below `overflow` is rounded on the grid of a power, by at most half of it. -/
theorem round?_spec {n d : Nat} (hn : 0 < n) (hd : 0 < d) (hlt : (n : ℚ) / d < overflow) :
    ∃ (magnitude mantissa : Nat) (power : Int), round? n d = some magnitude ∧
      value magnitude = mantissa * 2 ^ power ∧
      (n : ℚ) / d / 2 ^ power - 1 / 2 ≤ mantissa ∧ (mantissa : ℚ) ≤ n / d / 2 ^ power + 1 / 2 ∧
      (power = -1074 ∨ 2 ^ (power + 52) ≤ (n : ℚ) / d) := by
  obtain ⟨hlow, hhigh⟩ := floorLog_spec hn hd
  set power : Int := max (floorLog n d - 52) (-1074) with hpower
  set mantissa := nearest (n * Nat.pow 2 (-power).toNat) (d * Nat.pow 2 power.toNat) with hmantissa
  have hgrid : (0 : ℚ) < 2 ^ power := by positivity
  have hunit : ((n * Nat.pow 2 (-power).toNat : Nat) : ℚ) / (d * Nat.pow 2 power.toNat : Nat) =
      n / d / 2 ^ power := by
    rw [← pow_toNat_div 2 power]
    show ((n * 2 ^ (-power).toNat : Nat) : ℚ) / (d * 2 ^ power.toNat : Nat) = _
    push_cast
    field_simp
  obtain ⟨hdown, hup⟩ := nearest_spec (n * Nat.pow 2 (-power).toNat)
    (d := d * Nat.pow 2 power.toNat) (Nat.mul_pos hd (Nat.pow_pos (by norm_num)))
  rw [← hmantissa, hunit] at hdown hup
  -- below the next power of two, so at most fifty-four bits
  have hle : mantissa ≤ 2 ^ 53 := by
    have hunits : (n : ℚ) / d / 2 ^ power < 2 ^ 53 := by
      rw [div_lt_iff₀ hgrid]
      calc (n : ℚ) / d < 2 ^ (floorLog n d + 1) := hhigh
        _ ≤ 2 ^ (53 + power) := zpow_le_zpow_right₀ (by norm_num) (by omega)
        _ = 2 ^ 53 * 2 ^ power := by rw [zpow_add₀ (by norm_num)]; norm_num
    have : (mantissa : ℚ) < 2 ^ 53 + 1 := by linarith
    have : mantissa < 2 ^ 53 + 1 := by exact_mod_cast this
    omega
  have hexact : power = -1074 ∨ 2 ^ (power + 52) ≤ (n : ℚ) / d := by
    rcases Int.le_total (floorLog n d - 52) (-1074) with h | h
    · exact .inl (max_eq_right h)
    · refine .inr ?_
      rwa [hpower, max_eq_left h, sub_add_cancel]
  have hnormal : power = -1074 ∨ 2 ^ 52 ≤ mantissa := by
    refine hexact.imp_right fun h => ?_
    have hunits : (2 : ℚ) ^ 52 ≤ n / d / 2 ^ power := by
      rw [le_div_iff₀ hgrid, ← zpow_natCast, ← zpow_add₀ (by norm_num), add_comm]
      exact h
    have : (2 : ℚ) ^ 52 < mantissa + 1 := by linarith
    have : 2 ^ 52 < mantissa + 1 := by exact_mod_cast this
    omega
  have hmin : -1074 ≤ power := le_max_right _ _
  have hfits : (power + 1074).toNat * 2 ^ 52 + mantissa < 2047 * 2 ^ 52 := by
    have htop : power ≤ 971 := by
      by_contra hgt
      have hpast : (2 : ℚ) ^ (1024 : Int) ≤ n / d := by
        refine le_trans (zpow_le_zpow_right₀ (by norm_num) ?_) (hexact.resolve_left (by omega))
        omega
      exact absurd (lt_of_le_of_lt hpast hlt) (not_lt.2 overflow_le)
    rcases Int.lt_or_le power 971 with hbelow | habove
    · omega
    · obtain heq : power = 971 := by omega
      have hunits : (n : ℚ) / d / 2 ^ power < (2 ^ 54 - 1) / 2 := by
        rw [div_lt_iff₀ hgrid, heq, show (971 : Int) = (970 : Nat) + 1 from rfl,
          zpow_add_one₀ (by norm_num), zpow_natCast]
        rw [mul_comm ((2 : ℚ) ^ 970), ← mul_assoc, div_mul_cancel₀ _ (by norm_num)]
        exact hlt
      have : (mantissa : ℚ) < 2 ^ 53 := by linarith
      have : mantissa < 2 ^ 53 := by exact_mod_cast this
      omega
  refine ⟨(power + 1074).toNat * 2 ^ 52 + mantissa, mantissa, power, ?_,
    value_grid hmin hle hnormal, hdown, hup, hexact⟩
  unfold round?
  rw [if_neg hn.ne']
  exact if_pos hfits

/-- Rounding a number from one up adds at most one part in `2 ^ 53`. -/
theorem round?_of_one_le {n d : Nat} (hd : 0 < d) (hone : 1 ≤ (n : ℚ) / d)
    (hlt : (n : ℚ) / d < overflow) :
    ∃ magnitude, round? n d = some magnitude ∧ 1 ≤ value magnitude ∧
      value magnitude ≤ n / d * (1 + 1 / 2 ^ 53) := by
  have hn : 0 < n := by
    rcases Nat.eq_zero_or_pos n with rfl | h
    · norm_num at hone
    · exact h
  obtain ⟨magnitude, mantissa, power, hround, hvalue, hdown, hup, hexact⟩ := round?_spec hn hd hlt
  have hgrid : (0 : ℚ) < 2 ^ power := by positivity
  have hunits : (n : ℚ) / d / 2 ^ power * 2 ^ power = n / d := div_mul_cancel₀ _ hgrid.ne'
  refine ⟨magnitude, hround, ?_, ?_⟩
  · rw [hvalue]
    -- one is on the grid, or the whole grid is above it
    rcases Int.le_total power 0 with hpower | hpower
    · have hint : ((2 ^ (-power).toNat : Nat) : ℚ) * 2 ^ power = 1 := by
        rw [Nat.cast_pow, Nat.cast_ofNat, ← zpow_natCast, Int.toNat_of_nonneg (by omega),
          ← zpow_add₀ (by norm_num), neg_add_cancel, zpow_zero]
      have hle : ((2 ^ (-power).toNat : Nat) : ℚ) ≤ n / d / 2 ^ power := by
        rw [le_div_iff₀ hgrid, hint]
        exact hone
      have : ((2 ^ (-power).toNat : Nat) : ℚ) < mantissa + 1 := by linarith
      have : 2 ^ (-power).toNat < mantissa + 1 := by exact_mod_cast this
      rw [← hint]
      gcongr
      omega
    · have hlow := hexact.resolve_left (by omega)
      have hle : (1 : ℚ) ≤ n / d / 2 ^ power - 1 / 2 := by
        rw [le_sub_iff_add_le, le_div_iff₀ hgrid]
        refine le_trans ?_ hlow
        rw [zpow_add₀ (by norm_num)]
        nlinarith
      calc (1 : ℚ) ≤ mantissa := le_trans hle hdown
        _ ≤ mantissa * 2 ^ power :=
          le_mul_of_one_le_right (by positivity) (one_le_zpow₀ (by norm_num) hpower)
  · have hhalf : (2 : ℚ) ^ power ≤ n / d / 2 ^ 52 := by
      rcases hexact with rfl | hlow
      · refine le_trans ?_ (div_le_div_of_nonneg_right hone (by norm_num))
        rw [one_div, ← zpow_natCast, ← zpow_neg]
        exact zpow_le_zpow_right₀ (by norm_num) (by norm_num)
      · rw [le_div_iff₀ (by norm_num)]
        refine le_trans (le_of_eq ?_) hlow
        rw [zpow_add₀ (by norm_num)]
        norm_num
    calc value magnitude = mantissa * 2 ^ power := hvalue
      _ ≤ ((n : ℚ) / d / 2 ^ power + 1 / 2) * 2 ^ power := by gcongr
      _ = n / d + 2 ^ power / 2 := by rw [add_mul, hunits]; ring
      _ ≤ n / d + n / d / 2 ^ 52 / 2 := by gcongr
      _ = n / d * (1 + 1 / 2 ^ 53) := by ring

/-- Rounding does not lead out of the numbers up to `2 ^ 64`. -/
theorem round?_of_le {n d : Nat} (hd : 0 < d) (hle : (n : ℚ) / d ≤ 2 ^ 64) :
    ∃ magnitude, round? n d = some magnitude ∧ value magnitude ≤ 2 ^ 64 := by
  rcases Nat.eq_zero_or_pos n with rfl | hn
  · exact ⟨0, rfl, by rw [value_zero]; positivity⟩
  · have hlt : (n : ℚ) / d < overflow := lt_of_le_of_lt hle pow_lt_overflow
    obtain ⟨magnitude, mantissa, power, hround, hvalue, -, hup, hexact⟩ := round?_spec hn hd hlt
    have hgrid : (0 : ℚ) < 2 ^ power := by positivity
    -- the bound is on the grid
    have hpower : power ≤ 64 := by
      rcases hexact with rfl | hlow
      · norm_num
      · have hpow : (2 : ℚ) ^ (power + 52) ≤ 2 ^ (64 : Int) := le_trans hlow (by exact_mod_cast hle)
        have := (zpow_le_zpow_iff_right₀ (by norm_num)).1 hpow
        omega
    have hint : ((2 ^ (64 - power).toNat : Nat) : ℚ) * 2 ^ power = 2 ^ 64 := by
      rw [Nat.cast_pow, Nat.cast_ofNat, ← zpow_natCast, Int.toNat_of_nonneg (by omega),
        ← zpow_add₀ (by norm_num), sub_add_cancel]
      norm_num
    have hunits : (n : ℚ) / d / 2 ^ power ≤ (2 ^ (64 - power).toNat : Nat) := by
      rw [div_le_iff₀ hgrid, hint]
      exact hle
    have : (mantissa : ℚ) < (2 ^ (64 - power).toNat : Nat) + 1 := by linarith
    have : mantissa < 2 ^ (64 - power).toNat + 1 := by exact_mod_cast this
    refine ⟨magnitude, hround, ?_⟩
    rw [hvalue, ← hint]
    gcongr
    omega

/-! ## Products and quotients -/

/-- The quotient that a product is rounded from. -/
theorem times?_eq (x y : Nat) :
    ∃ n d, times? x y = round? n d ∧ 0 < d ∧ (n : ℚ) / d = value x * value y := by
  refine ⟨_, _, rfl, Nat.pow_pos (by norm_num), ?_⟩
  unfold value
  rw [mul_mul_mul_comm, ← zpow_add₀ (by norm_num),
    ← pow_toNat_div 2 ((parts x).2 + (parts y).2), ← mul_div_assoc]
  show (((parts x).1 * (parts y).1 * 2 ^ _ : Nat) : ℚ) / (2 ^ _ : Nat) = _
  push_cast
  rfl

/-- The quotient that a quotient of magnitudes is rounded from. -/
theorem over?_eq (x : Nat) {y : Nat} (hy : 0 < value y) :
    ∃ n d, over? x y = round? n d ∧ 0 < d ∧ (n : ℚ) / d = value x / value y := by
  have hmantissa : 0 < (parts y).1 := by
    rcases Nat.eq_zero_or_pos (parts y).1 with h | h
    · rw [value, h] at hy
      norm_num at hy
    · exact h
  refine ⟨_, _, rfl, Nat.mul_pos hmantissa (Nat.pow_pos (by norm_num)), ?_⟩
  unfold value
  rw [mul_div_mul_comm, ← zpow_sub₀ (by norm_num),
    ← pow_toNat_div 2 ((parts x).2 - (parts y).2), div_mul_div_comm]
  show (((parts x).1 * 2 ^ _ : Nat) : ℚ) / ((parts y).1 * 2 ^ _ : Nat) = _
  push_cast
  rfl

theorem tenTo?_spec {k : Nat} (hk : k ≤ 308) :
    ∃ ten, tenTo? k = some ten ∧ 1 ≤ value ten ∧ value ten ≤ 10 ^ k * (1 + 1 / 2 ^ 53) := by
  have hcast : ((Nat.pow 10 k : Nat) : ℚ) / (1 : Nat) = 10 ^ k := by
    show ((10 ^ k : Nat) : ℚ) / (1 : Nat) = 10 ^ k
    push_cast
    rw [div_one]
  have hlt : (10 : ℚ) ^ k < overflow :=
    lt_of_le_of_lt (pow_le_pow_right₀ (by norm_num) hk) ten_pow_lt_overflow
  obtain ⟨ten, hten, hone, hle⟩ := round?_of_one_le (n := Nat.pow 10 k) (d := 1) (by norm_num)
    (by rw [hcast]; exact one_le_pow₀ (by norm_num)) (by rwa [hcast])
  rw [hcast] at hle
  exact ⟨ten, hten, hone, hle⟩

/-! ## Scaling -/

/-- Scaling down does not lead out of the numbers up to `2 ^ 64`. -/
theorem scale?_down (steps : Nat) {x : Nat} {exponent : Int} (hexponent : exponent < 0)
    (hx : value x ≤ 2 ^ 64) :
    ∃ magnitude, scale? steps x exponent = some magnitude ∧ value magnitude ≤ 2 ^ 64 := by
  -- one quotient by a power of ten
  have hquotient : ∀ k ≤ 308, ∀ {x : Nat}, value x ≤ 2 ^ 64 → ∃ ten magnitude,
      tenTo? k = some ten ∧ over? x ten = some magnitude ∧ value magnitude ≤ 2 ^ 64 := by
    intro k hk x hx
    obtain ⟨ten, hten, hone, -⟩ := tenTo?_spec hk
    obtain ⟨n, d, hover, hd, hcast⟩ := over?_eq x (lt_of_lt_of_le one_pos hone)
    have hle : (n : ℚ) / d ≤ 2 ^ 64 := hcast ▸ le_trans (div_le_self (value_nonneg x) hone) hx
    obtain ⟨magnitude, hround, hmagnitude⟩ := round?_of_le hd hle
    exact ⟨ten, magnitude, hten, hover.trans hround, hmagnitude⟩
  induction steps generalizing x exponent with
  | zero => exact ⟨x, rfl, hx⟩
  | succ steps ih =>
    rw [scale?]
    split
    · next hsmall =>
      obtain ⟨ten, magnitude, hten, hover, hmagnitude⟩ := hquotient _ hsmall hx
      refine ⟨magnitude, ?_, hmagnitude⟩
      rw [hten, Option.bind_eq_bind, Option.bind_some, if_neg (by omega), hover]
    · next hlarge =>
      split
      · exact ⟨x, rfl, hx⟩
      · obtain ⟨ten, magnitude, hten, hover, hmagnitude⟩ := hquotient 308 le_rfl hx
        have hrest : exponent + 308 < 0 := by omega
        obtain ⟨result, hscale, hresult⟩ := ih hrest hmagnitude
        refine ⟨result, ?_, hresult⟩
        rw [if_neg (by omega), hten, Option.bind_eq_bind, Option.bind_some, hover,
          Option.bind_some, hscale]

/-- The largest decimal number that is sure to be read: three roundings away from `overflow`. -/
def readable : ℚ :=
  (2 ^ 54 - 7) * 2 ^ 970

theorem readable_lt : readable < 10 ^ 309 := by
  have h : 18014398509481977 * 2 ^ 970 < 10 ^ 309 := by decide +kernel
  calc readable = 18014398509481977 * 2 ^ 970 := by norm_num [readable]
    _ < 10 ^ 309 := by exact_mod_cast h

theorem readable_mul_lt : readable * (1 + 1 / 2 ^ 53) ^ 2 < overflow := by
  rw [readable, overflow, mul_right_comm]
  gcongr
  norm_num

/-- A decimal number up to `readable` is read. -/
theorem ofDecimal?_isSome (negative : Bool) {significand : UInt64} {exponent : Int}
    (h : (significand.toNat : ℚ) * 10 ^ exponent ≤ readable) :
    (ofDecimal? negative significand exponent).isSome := by
  have hscaled : ∃ whole magnitude, round? significand.toNat 1 = some whole ∧
      scale? 4 whole exponent = some magnitude := by
    have hcast : (significand.toNat : ℚ) / (1 : Nat) = significand.toNat := by
      rw [Nat.cast_one, div_one]
    have hword : (significand.toNat : ℚ) ≤ 2 ^ 64 := by
      exact_mod_cast significand.toNat_lt.le
    rcases Int.lt_or_le exponent 0 with hdown | hup
    · obtain ⟨whole, hwhole, hle⟩ := round?_of_le (n := significand.toNat) one_pos
        (by rwa [hcast])
      obtain ⟨magnitude, hscale, -⟩ := scale?_down 4 hdown hle
      exact ⟨whole, magnitude, hwhole, hscale⟩
    rcases Nat.eq_zero_or_pos significand.toNat with hzero | hpos
    · -- zero stays zero
      rw [hzero]
      refine ⟨0, 0, rfl, ?_⟩
      rw [scale?]
      split
      · next hsmall =>
        obtain ⟨ten, hten, -⟩ := tenTo?_spec hsmall
        rw [hten]
        simp [times?, parts, round?]
      · rw [if_pos rfl]
    · have hone : (1 : ℚ) ≤ significand.toNat := by exact_mod_cast hpos
      obtain ⟨k, rfl⟩ := Int.eq_ofNat_of_zero_le hup
      rw [zpow_natCast] at h
      have hk : k ≤ 308 := by
        by_contra hgt
        have hpow : (10 : ℚ) ^ 309 ≤ 10 ^ k := pow_le_pow_right₀ (by norm_num) (by omega)
        have hpast : (10 : ℚ) ^ 309 ≤ readable := by
          refine le_trans hpow (le_trans ?_ h)
          exact le_mul_of_one_le_left (by positivity) hone
        exact absurd hpast (not_le.2 readable_lt)
      obtain ⟨whole, hwhole, hwholeone, hwholele⟩ := round?_of_one_le (n := significand.toNat)
        one_pos (by rwa [hcast]) (by rw [hcast]; exact lt_of_le_of_lt hword pow_lt_overflow)
      obtain ⟨ten, hten, htenone, htenle⟩ := tenTo?_spec hk
      obtain ⟨n, d, htimes, hd, hproduct⟩ := times?_eq whole ten
      rw [hcast] at hwholele
      have hlt : (n : ℚ) / d < overflow := by
        calc (n : ℚ) / d = value whole * value ten := hproduct
          _ ≤ significand.toNat * (1 + 1 / 2 ^ 53) * (10 ^ k * (1 + 1 / 2 ^ 53)) := by gcongr
          _ = significand.toNat * 10 ^ k * (1 + 1 / 2 ^ 53) ^ 2 := by ring
          _ ≤ readable * (1 + 1 / 2 ^ 53) ^ 2 := by gcongr
          _ < overflow := readable_mul_lt
      obtain ⟨magnitude, hround, -⟩ := round?_of_one_le hd
        (hproduct ▸ one_le_mul_of_one_le_of_one_le hwholeone htenone) hlt
      refine ⟨whole, magnitude, hwhole, ?_⟩
      rw [scale?, if_pos (by simpa using hk)]
      simp only [Int.natAbs_natCast, hten, Option.bind_eq_bind, Option.bind_some]
      rw [if_pos hup, htimes, hround]
  obtain ⟨whole, magnitude, hwhole, hscale⟩ := hscaled
  rw [ofDecimal?, hwhole, Option.bind_eq_bind, Option.bind_some, hscale]
  rfl

end Converge.Double
