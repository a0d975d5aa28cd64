import Converge.Proofs.WrittenTime
import Mathlib.Algebra.Group.Nat.Defs
/-!
# Times that are read

Main statement: whatever is read from the RFC 3339 form is a point in time (`isPoint_of_read?`), in
whatever zone it was written, so its own text is read back.
-/

namespace Converge.Timestamp

/-! ## Parts -/

theorem lt_of_digit? {radix d : Nat} {c : Char} (h : Text.digit? radix c = some d) : d < radix := by
  obtain ⟨-, hd⟩ := Option.filter_eq_some_iff.1 h
  exact of_decide_eq_true hd

/-- As many digits are less than the power of the radix. -/
theorem lt_of_natOfDigits? {digits : List Char} {n : Nat}
    (h : Text.natOfDigits? 10 digits = some n) : n < 10 ^ digits.length := by
  -- what has been read before is taken times the radix with every digit
  have step : ∀ (digits : List Char) (m : Nat),
      digits.foldlM (fun m c => (Text.digit? 10 c).map (m * 10 + ·)) m = some n →
        n < (m + 1) * 10 ^ digits.length := by
    intro digits
    induction digits with
    | nil =>
      intro m hm
      cases hm
      simp
    | cons c rest ih =>
      intro m hm
      rw [List.foldlM_cons] at hm
      obtain ⟨next, hnext, hrest⟩ := Option.bind_eq_some_iff.1 hm
      obtain ⟨d, hd, rfl⟩ := Option.map_eq_some_iff.1 hnext
      have hlt := lt_of_digit? hd
      calc n < (m * 10 + d + 1) * 10 ^ rest.length := ih _ hrest
        _ ≤ ((m + 1) * 10) * 10 ^ rest.length := Nat.mul_le_mul_right _ (by omega)
        _ = (m + 1) * 10 ^ (c :: rest).length := by
          rw [List.length_cons, Nat.pow_succ, Nat.mul_assoc, Nat.mul_comm 10]
  unfold Text.natOfDigits? at h
  split at h
  · cases h
  · have hlt := step digits 0 h
    rwa [Nat.zero_add, Nat.one_mul] at hlt

/-- The decimals of a second are less than a second. -/
theorem lt_of_readNanos {s rest : List Char} {nanos : Nat} (h : readNanos s = some (nanos, rest)) :
    nanos < 1000000000 := by
  unfold readNanos at h
  split at h
  · next digits =>
    extract_lets taken at h
    obtain ⟨n, hn, heq⟩ := Option.map_eq_some_iff.1 h
    obtain ⟨rfl, -⟩ := Prod.mk.inj heq
    have hlength : taken.length ≤ 9 :=
      Nat.le_trans (List.takeWhile_prefix _).length_le (List.length_take_le 9 digits)
    calc n * 10 ^ (9 - taken.length)
        < 10 ^ taken.length * 10 ^ (9 - taken.length) :=
          Nat.mul_lt_mul_of_pos_right (lt_of_natOfDigits? hn) (Nat.pow_pos (by decide))
      _ = 10 ^ 9 := by rw [← Nat.pow_add, Nat.add_sub_cancel' hlength]
  · cases h
    decide

/-- A zone is a whole number of minutes. -/
theorem mod_of_readHours {sign zone : Int} {s rest : List Char}
    (h : readZone.readHours sign s = some (zone, rest)) : zone % 60 = 0 := by
  obtain ⟨⟨hours, s⟩, -, h⟩ := Option.bind_eq_some_iff.1 h
  obtain ⟨⟨minutes, s⟩, -, h⟩ := Option.bind_eq_some_iff.1 h
  dsimp only at h
  split at h
  · obtain ⟨rfl, -⟩ := Prod.mk.inj (Option.some.inj h)
    have hminutes : (hours * 3600 + minutes * 60 : Nat) = (hours * 60 + minutes : Int) * 60 := by
      omega
    rw [hminutes, ← Int.mul_assoc]
    exact Int.mul_emod_left _ _
  · cases h

theorem mod_of_readZone {s rest : List Char} {zone : Int} (h : readZone s = some (zone, rest)) :
    zone % 60 = 0 := by
  have hoffset : readZone.readOffset s = some (zone, rest) → zone % 60 = 0 := by
    intro hread
    unfold readZone.readOffset at hread
    split at hread
    · cases hread
      rfl
    · cases hread
      rfl
    · exact mod_of_readHours hread
    · exact mod_of_readHours hread
    · exact mod_of_readHours hread
    · cases hread
  unfold readZone at h
  split at h
  · split at h
    · cases h
      rfl
    · exact hoffset h
  · exact hoffset h

/-! ## Whole times -/

/-- Parts that exist, in a zone of whole minutes, give a point in time. -/
theorem isPoint_of_ofParts? {year : Int} {month day hour minute second nanos : Nat} {zone : Int}
    {t : Timestamp} (hnanos : nanos < 1000000000) (hzone : zone % 60 = 0)
    (h : ofParts? year month day hour minute second nanos zone = some t) : t.IsPoint := by
  unfold ofParts? at h
  extract_lets leap local_ seconds utcDay utcYear at h
  split at h
  · cases h
  · split at h
    · cases h
    · next hparts hyear =>
      obtain rfl := Option.some.inj h
      simp only [Bool.or_eq_true, decide_eq_true_eq, not_or] at hparts hyear
      have hday : utcDay = seconds / 86400 := Int.fdiv_eq_ediv_of_nonneg _ (by decide)
      refine ⟨?_, ?_, ?_, ?_⟩
      · show (seconds - utcDay * 86400).toNat < 86400
        omega
      · show nanos + (if leap then 1000000000 else 0) < 2000000000
        split <;> omega
      · intro hle
        -- nanoseconds beyond a second are those of a leap second, which is kept as the 59th
        show (seconds - utcDay * 86400).toNat % 60 = 59
        replace hle : 1000000000 ≤ nanos + (if leap then 1000000000 else 0) := hle
        have hleap : leap = true := by
          cases hleap : leap with
          | true => rfl
          | false =>
            rw [hleap, if_neg Bool.false_ne_true] at hle
            omega
        have hlocal : local_ = hour * 3600 + minute * 60 + 59 := by simp [local_, hleap]
        have hseconds : seconds = dayOfDate year month day * 86400 + local_ - zone := rfl
        omega
      · show minYear ≤ utcYear ∧ utcYear ≤ maxYear
        omega

/-- Whatever is read is a point in time. -/
theorem isPoint_of_read? {text : String} {t : Timestamp} (h : read? text = some t) : t.IsPoint := by
  obtain ⟨⟨year, s⟩, -, h⟩ := Option.bind_eq_some_iff.1 h
  obtain ⟨s, -, h⟩ := Option.bind_eq_some_iff.1 h
  obtain ⟨⟨month, s⟩, -, h⟩ := Option.bind_eq_some_iff.1 h
  obtain ⟨s, -, h⟩ := Option.bind_eq_some_iff.1 h
  obtain ⟨⟨day, s⟩, -, h⟩ := Option.bind_eq_some_iff.1 h
  dsimp -zeta only at h
  extract_lets clock at h
  -- what follows the date is the same for each of the marks between them
  have hclock : ∀ s, clock s = some t → t.IsPoint := by
    intro s h
    obtain ⟨⟨hour, s⟩, -, h⟩ := Option.bind_eq_some_iff.1 h
    obtain ⟨s, -, h⟩ := Option.bind_eq_some_iff.1 h
    obtain ⟨⟨minute, s⟩, -, h⟩ := Option.bind_eq_some_iff.1 h
    obtain ⟨s, -, h⟩ := Option.bind_eq_some_iff.1 h
    obtain ⟨⟨second, s⟩, -, h⟩ := Option.bind_eq_some_iff.1 h
    obtain ⟨⟨nanos, s⟩, hnanos, h⟩ := Option.bind_eq_some_iff.1 h
    obtain ⟨⟨zone, s⟩, hzone, h⟩ := Option.bind_eq_some_iff.1 h
    dsimp only at h
    split at h
    · exact isPoint_of_ofParts? (lt_of_readNanos hnanos) (mod_of_readZone hzone) h
    · cases h
  split at h
  · exact hclock _ h
  · exact hclock _ h
  · exact hclock _ h
  · cases h

end Converge.Timestamp
