/-!
# Natural numbers as digits

Reading digits in a radix and writing decimal digits.  Main statements: what `decimal` writes is
read back (`natOfDigits?_decimal`) and begins with a zero only for zero (`head?_decimal`), and a
number that is not too large is written in just as many digits as it is padded to
(`length_paddedDecimal`).
-/

namespace Converge.Text

/-- An ASCII decimal digit. -/
def isDigit (c : Char) : Bool :=
  '0' ≤ c && c ≤ '9'

/-- The value of a digit; letters of either case stand for ten and above. -/
def digit? (radix : Nat) (c : Char) : Option Nat :=
  let value :=
    if '0' ≤ c && c ≤ '9' then some (c.toNat - 48)
    else if 'a' ≤ c && c ≤ 'z' then some (c.toNat - 87)
    else if 'A' ≤ c && c ≤ 'Z' then some (c.toNat - 55)
    else none
  value.filter (· < radix)

/-- The number that a non-empty run of digits denotes; leading zeros are allowed. -/
def natOfDigits? (radix : Nat) : List Char → Option Nat
  | [] => none
  | digits => digits.foldlM (fun n c => (digit? radix c).map (n * radix + ·)) 0

/-- The bound of the numbers that fit into 64 bits. -/
def wordLimit : Nat := Nat.pow 2 64

/-- The number that decimal digits denote, with or without a plus sign, if it is below `limit`. -/
def boundedNat? (limit : Nat) (s : List Char) : Option Nat :=
  let digits := match s with
    | '+' :: rest => rest
    | _ => s
  (natOfDigits? 10 digits).filter (· < limit)

/-- The character of a decimal digit below ten. -/
def digitChar (n : Nat) : Char :=
  Char.ofNat (48 + n)

/-- The decimal digits of a number, without leading zeros. -/
def decimal (n : Nat) : List Char :=
  if n < 10 then [digitChar n] else decimal (n / 10) ++ [digitChar (n % 10)]

/-- The decimal digits of a number, padded with zeros to at least `width` characters. -/
def paddedDecimal (width n : Nat) : List Char :=
  let digits := decimal n
  List.replicate (width - digits.length) '0' ++ digits

/-! ## Reading what was written -/

theorem digit?_digitChar {n : Nat} (h : n < 10) : digit? 10 (digitChar n) = some n := by
  match n, h with
  | 0, _ | 1, _ | 2, _ | 3, _ | 4, _ | 5, _ | 6, _ | 7, _ | 8, _ | 9, _ => rfl

theorem isDigit_digitChar {n : Nat} (h : n < 10) : isDigit (digitChar n) := by
  match n, h with
  | 0, _ | 1, _ | 2, _ | 3, _ | 4, _ | 5, _ | 6, _ | 7, _ | 8, _ | 9, _ => rfl

theorem isDigit_of_mem_decimal {n : Nat} {c : Char} (h : c ∈ decimal n) : isDigit c := by
  induction n using Nat.strongRecOn with
  | ind n ih =>
    rw [decimal] at h
    split at h
    · next hlt => rw [List.mem_singleton.1 h, isDigit_digitChar hlt]
    · next hge =>
      rcases List.mem_append.1 h with h | h
      · exact ih (n / 10) (by omega) h
      · rw [List.mem_singleton.1 h, isDigit_digitChar (Nat.mod_lt n (by decide))]

theorem decimal_ne_nil (n : Nat) : decimal n ≠ [] := by
  rw [decimal]
  split <;> simp

/-- Only zero begins with a zero. -/
theorem head?_decimal {n : Nat} (h : 0 < n) : (decimal n).head? ≠ some '0' := by
  induction n using Nat.strongRecOn with
  | ind n ih =>
    rw [decimal]
    split
    · next hlt =>
      match n, h, hlt with
      | 1, _, _ | 2, _, _ | 3, _, _ | 4, _, _ | 5, _, _ | 6, _, _ | 7, _, _ | 8, _, _ | 9, _, _ =>
        decide
    · next hge =>
      have hrest := ih (n / 10) (by omega) (by omega)
      cases hdigits : decimal (n / 10) with
      | nil => exact absurd hdigits (decimal_ne_nil _)
      | cons c rest => rwa [hdigits] at hrest

theorem foldlM_decimal (n : Nat) :
    (decimal n).foldlM (fun m c => (digit? 10 c).map (m * 10 + ·)) 0 = some n := by
  induction n using Nat.strongRecOn with
  | ind n ih =>
    rw [decimal]
    split
    · next h => simp [digit?_digitChar h]
    · next h =>
      rw [List.foldlM_append, ih (n / 10) (by omega)]
      simp [digit?_digitChar (Nat.mod_lt n (by decide : 10 > 0))]
      omega

theorem natOfDigits?_decimal (n : Nat) : natOfDigits? 10 (decimal n) = some n := by
  rw [natOfDigits?.eq_def]
  split
  · next h => exact absurd h (decimal_ne_nil n)
  · exact foldlM_decimal n

/-- Zeros in front do not count. -/
theorem natOfDigits?_paddedDecimal (width n : Nat) :
    natOfDigits? 10 (paddedDecimal width n) = some n := by
  have hzeros (zeros : Nat) : (List.replicate zeros '0' ++ decimal n).foldlM
      (fun m c => (digit? 10 c).map (m * 10 + ·)) 0 = some n := by
    induction zeros with
    | zero => exact foldlM_decimal n
    | succ zeros ih => exact ih
  rw [natOfDigits?.eq_def]
  split
  · next h => exact absurd (List.append_eq_nil_iff.1 h).2 (decimal_ne_nil n)
  · exact hzeros _

theorem length_decimal_le {width n : Nat} (hwidth : 0 < width) (h : n < Nat.pow 10 width) :
    (decimal n).length ≤ width := by
  induction width generalizing n with
  | zero => exact absurd hwidth (Nat.lt_irrefl 0)
  | succ width ih =>
    rw [decimal]
    split
    · exact Nat.succ_le_succ (Nat.zero_le width)
    · next hlarge =>
      have hpow : Nat.pow 10 (width + 1) = Nat.pow 10 width * 10 := rfl
      have hwidth : 0 < width := Nat.pos_of_ne_zero fun hzero => by
        subst hzero
        exact hlarge h
      rw [List.length_append]
      exact Nat.succ_le_succ (ih hwidth (by omega))

theorem length_paddedDecimal {width n : Nat} (hwidth : 0 < width) (h : n < Nat.pow 10 width) :
    (paddedDecimal width n).length = width := by
  have hle := length_decimal_le hwidth h
  rw [paddedDecimal, List.length_append, List.length_replicate]
  omega

end Converge.Text
