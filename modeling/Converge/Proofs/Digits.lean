import Converge.Text.Digits
import Mathlib.Algebra.Group.Nat.Defs
/-!
# Runs of digits

Decimal digits denote a number (`Text.number`), with or without zeros in front.  Main statement:
that number is read from every run of digits that is not empty (`IsDigits.natOfDigits?_eq`).
-/

namespace Converge

open Text (isDigit)

/-- A run of digits that is not empty. -/
structure IsDigits (digits : List Char) : Prop where
  ne_nil : digits ≠ []
  isDigit : ∀ c ∈ digits, isDigit c

theorem isDigits_zero : IsDigits ['0'] :=
  ⟨by simp, by simp [isDigit]⟩

theorem isDigit_of_mem_zeros {n : Nat} {c : Char} (h : c ∈ List.replicate n '0') : isDigit c := by
  rw [List.eq_of_mem_replicate h]
  decide

namespace IsDigits

variable {digits : List Char}

theorem decimal (n : Nat) : IsDigits (Text.decimal n) :=
  ⟨Text.decimal_ne_nil n, fun _ => Text.isDigit_of_mem_decimal⟩

theorem append_zeros (h : IsDigits digits) (n : Nat) : IsDigits (digits ++ List.replicate n '0') :=
  ⟨by simp [h.ne_nil],
    fun _ hc => (List.mem_append.1 hc).elim (h.isDigit _) isDigit_of_mem_zeros⟩

theorem zeros_append (h : IsDigits digits) (n : Nat) : IsDigits (List.replicate n '0' ++ digits) :=
  ⟨by simp [h.ne_nil],
    fun _ hc => (List.mem_append.1 hc).elim isDigit_of_mem_zeros (h.isDigit _)⟩

theorem take (h : IsDigits digits) (n : Nat) : IsDigits (digits.take (n + 1)) :=
  ⟨by simp [h.ne_nil], fun _ hc => h.isDigit _ (List.mem_of_mem_take hc)⟩

theorem drop (h : IsDigits digits) {n : Nat} (hn : n < digits.length) : IsDigits (digits.drop n) :=
  ⟨by simpa using hn, fun _ hc => h.isDigit _ (List.mem_of_mem_drop hc)⟩

theorem takeWhile_append (h : IsDigits digits) {rest : List Char}
    (hrest : ∀ c ∈ rest.head?, Text.isDigit c = false) :
    (digits ++ rest).takeWhile Text.isDigit = digits := by
  rw [List.takeWhile_append_of_pos h.isDigit]
  cases rest with
  | nil => simp
  | cons c rest => simp [hrest c rfl]

theorem dropWhile_append (h : IsDigits digits) {rest : List Char}
    (hrest : ∀ c ∈ rest.head?, Text.isDigit c = false) :
    (digits ++ rest).dropWhile Text.isDigit = rest := by
  rw [List.dropWhile_append_of_pos h.isDigit]
  cases rest with
  | nil => simp
  | cons c rest => simp [hrest c rfl]

end IsDigits

/-! ## The number that digits denote -/

namespace Text

/-- The number that decimal digits denote. -/
def number (digits : List Char) : Nat :=
  digits.foldl (fun n c => n * 10 + (c.toNat - 48)) 0

theorem foldl_digits (digits : List Char) (n : Nat) :
    digits.foldl (fun n c => n * 10 + (c.toNat - 48)) n =
      n * 10 ^ digits.length + number digits := by
  induction digits generalizing n with
  | nil => simp [number]
  | cons c rest ih =>
    have hnumber : number (c :: rest) =
        (0 * 10 + (c.toNat - 48)) * 10 ^ rest.length + number rest := ih _
    rw [List.foldl_cons, ih, hnumber, List.length_cons, pow_succ, Nat.zero_mul, Nat.zero_add,
      Nat.add_mul, Nat.mul_assoc, Nat.mul_comm 10, Nat.add_assoc]

theorem number_cons (c : Char) (rest : List Char) :
    number (c :: rest) = (c.toNat - 48) * 10 ^ rest.length + number rest := by
  rw [number, List.foldl_cons, foldl_digits, Nat.zero_mul, Nat.zero_add]

theorem number_append (a b : List Char) :
    number (a ++ b) = number a * 10 ^ b.length + number b := by
  rw [number, List.foldl_append, foldl_digits]
  rfl

theorem number_zeros (n : Nat) : number (List.replicate n '0') = 0 := by
  induction n with
  | zero => rfl
  | succ n ih => simp [List.replicate_succ, number_cons, ih]

theorem number_decimal (n : Nat) : number (decimal n) = n := by
  have hdigit : ∀ d < 10, (digitChar d).toNat - 48 = d := by decide
  induction n using Nat.strongRecOn with
  | ind n ih =>
    rw [decimal]
    split
    · next hlt => simp [number, hdigit n hlt]
    · next hge =>
      rw [number_append, ih (n / 10) (by omega), number_cons, hdigit _ (Nat.mod_lt n (by decide))]
      simp only [List.length_singleton, List.length_nil, number, List.foldl_nil]
      omega

theorem sub_lt_of_isDigit {c : Char} (h : isDigit c) : c.toNat - 48 < 10 := by
  simp only [isDigit, Bool.and_eq_true, decide_eq_true_eq] at h
  have hle : c.toNat ≤ '9'.toNat := h.2
  have hnine : '9'.toNat = 57 := rfl
  omega

theorem number_lt {digits : List Char} (h : ∀ c ∈ digits, isDigit c) :
    number digits < 10 ^ digits.length := by
  induction digits with
  | nil => decide
  | cons c rest ih =>
    obtain ⟨hc, hrest⟩ := List.forall_mem_cons.1 h
    have hdigit : c.toNat - 48 ≤ 9 := Nat.le_of_lt_succ (sub_lt_of_isDigit hc)
    have := ih hrest
    have := Nat.mul_le_mul_right (10 ^ rest.length) hdigit
    rw [number_cons, List.length_cons, pow_succ]
    omega

/-- A positive number is not less than the power of ten of its first digit. -/
theorem pow_length_decimal_le {n : Nat} (h : 0 < n) : 10 ^ ((decimal n).length - 1) ≤ n := by
  induction n using Nat.strongRecOn with
  | ind n ih =>
    rw [decimal]
    split
    · exact h
    · next hge =>
      have hrest := ih (n / 10) (by omega) (by omega)
      have hlength : (decimal (n / 10)).length - 1 + 1 = (decimal (n / 10)).length :=
        Nat.sub_add_cancel (List.length_pos_iff.2 (decimal_ne_nil _))
      rw [List.length_append, List.length_singleton, Nat.add_sub_cancel, ← hlength, pow_succ]
      omega

/-! ## Reading digits -/

theorem digit?_of_isDigit {c : Char} (h : isDigit c) : digit? 10 c = some (c.toNat - 48) := by
  have hrange : ('0' ≤ c && c ≤ '9') = true := h
  rw [digit?, if_pos hrange, Option.filter_some, if_pos (by simpa using sub_lt_of_isDigit h)]

theorem foldlM_digit? {digits : List Char} (h : ∀ c ∈ digits, isDigit c) (n : Nat) :
    digits.foldlM (fun n c => (digit? 10 c).map (n * 10 + ·)) n =
      some (digits.foldl (fun n c => n * 10 + (c.toNat - 48)) n) := by
  induction digits generalizing n with
  | nil => rfl
  | cons c rest ih =>
    obtain ⟨hc, hrest⟩ := List.forall_mem_cons.1 h
    rw [List.foldlM_cons, digit?_of_isDigit hc]
    exact ih hrest _

end Text

theorem IsDigits.natOfDigits?_eq {digits : List Char} (h : IsDigits digits) :
    Text.natOfDigits? 10 digits = some (Text.number digits) := by
  obtain ⟨c, rest, rfl⟩ := List.exists_cons_of_ne_nil h.ne_nil
  exact Text.foldlM_digit? h.isDigit 0

/-- No plus sign stands in front of digits. -/
theorem IsDigits.boundedNat?_eq {digits : List Char} (h : IsDigits digits) (limit : Nat) :
    Text.boundedNat? limit digits = (some (Text.number digits)).filter (· < limit) := by
  unfold Text.boundedNat?
  split
  · exact absurd (h.isDigit '+' List.mem_cons_self) (by decide)
  · exact congrArg (·.filter (· < limit)) h.natOfDigits?_eq

end Converge
