import Converge.Proofs.Calendar
import Converge.Proofs.Numeral
/-!
# Written times

A point in time that exists is read back from its RFC 3339 form, with either way of writing the zone
(`IsPoint.read?_write` and `IsPoint.read?_writeZulu`), part by part: each part is read wherever what
follows it could not go on with it.
-/

namespace Converge

/-! ## Padded numbers -/

theorem IsDigits.paddedDecimal (width n : Nat) : IsDigits (Text.paddedDecimal width n) :=
  (IsDigits.decimal n).zeros_append _

theorem isBlank_eq_false_of_isDigit {c : Char} (h : Text.isDigit c) : Text.isBlank c = false := by
  have hrange : 48 ≤ c.toNat ∧ c.toNat ≤ 57 := by
    simpa [Text.isDigit, Char.le_def, UInt32.le_iff_toNat_le] using h
  simp only [Text.isBlank, Bool.or_eq_false_iff, Bool.and_eq_false_iff, decide_eq_false_iff_not,
    beq_eq_false_iff_ne, ne_eq]
  omega

theorem IsDigits.trimStart_append {digits : List Char} (h : IsDigits digits) (rest : List Char) :
    Text.trimStart (digits ++ rest) = digits ++ rest := by
  cases digits with
  | nil => exact absurd rfl h.ne_nil
  | cons c digits =>
    have hc := isBlank_eq_false_of_isDigit (h.isDigit c List.mem_cons_self)
    rw [Text.trimStart, List.cons_append, List.dropWhile_cons_of_neg (by simp [hc])]

namespace Timestamp

/-- A number that fits into its width is read back. -/
theorem readNumber_paddedDecimal {width n : Nat} (hwidth : 0 < width) (h : n < Nat.pow 10 width)
    (rest : List Char) :
    readNumber width (Text.paddedDecimal width n ++ rest) = some (n, rest) := by
  have hdigits := IsDigits.paddedDecimal width n
  have hlength := Text.length_paddedDecimal hwidth h
  have htake : ((Text.paddedDecimal width n ++ rest).take width).takeWhile Text.isDigit =
      Text.paddedDecimal width n := by
    have hall : (Text.paddedDecimal width n ++ []).takeWhile Text.isDigit = _ :=
      hdigits.takeWhile_append nofun
    rw [List.take_left' hlength]
    rwa [List.append_nil] at hall
  unfold readNumber
  simp only [hdigits.trimStart_append, htake, Text.natOfDigits?_paddedDecimal, Option.map_some,
    List.drop_left]

theorem readMark_cons {mark : Char} (h : Text.isBlank mark = false) (rest : List Char) :
    readMark mark (mark :: rest) = some rest := by
  simp [readMark, Text.trimStart, h]

/-! ## Parts -/

/-- A year is read back where a hyphen follows. -/
theorem readYear_yearText (year : Int) (rest : List Char) :
    readYear (yearText year ++ '-' :: rest) = some (year, '-' :: rest) := by
  have hdigits := IsDigits.paddedDecimal 4 year.natAbs
  have hsigned : readYear.readSigned (Text.paddedDecimal 4 year.natAbs ++ '-' :: rest) =
      some (year.natAbs, '-' :: rest) := by
    have htake : (Text.paddedDecimal 4 year.natAbs ++ '-' :: rest).takeWhile Text.isDigit = _ :=
      hdigits.takeWhile_append (by simp [Text.isDigit])
    simp only [readYear.readSigned, htake, Text.natOfDigits?_paddedDecimal, Option.map_some,
      List.drop_left]
  unfold yearText
  split
  · next hfour =>
    simp only [Bool.and_eq_true, decide_eq_true_eq] at hfour
    have hread : readNumber 4 (Text.paddedDecimal 4 year.natAbs ++ '-' :: rest) = _ :=
      readNumber_paddedDecimal (by decide) (show year.natAbs < 10000 by omega) _
    have hyear : (year.natAbs : Int) = year := by omega
    -- a digit is neither sign
    rw [readYear, hdigits.trimStart_append]
    cases htext : Text.paddedDecimal 4 year.natAbs with
    | nil => exact absurd htext hdigits.ne_nil
    | cons c digits =>
      rw [htext] at hread hdigits
      have hc := hdigits.isDigit c List.mem_cons_self
      have hminus : c ≠ '-' := fun h => by simp [h, Text.isDigit] at hc
      have hplus : c ≠ '+' := fun h => by simp [h, Text.isDigit] at hc
      rw [List.cons_append] at hread ⊢
      split
      · next h => exact absurd (List.cons.inj h).1 hminus
      · next h => exact absurd (List.cons.inj h).1 hplus
      · rw [hread]
        exact congrArg (fun y => some (y, '-' :: rest)) hyear
  · next hfour =>
    split
    · next hnegative =>
      have hyear : -(year.natAbs : Int) = year := by omega
      show (readYear.readSigned (Text.paddedDecimal 4 year.natAbs ++ '-' :: rest)).map _ = _
      rw [hsigned]
      exact congrArg (fun y => some (y, '-' :: rest)) hyear
    · next hnegative =>
      have hyear : (year.natAbs : Int) = year := by omega
      show (readYear.readSigned (Text.paddedDecimal 4 year.natAbs ++ '-' :: rest)).map _ = _
      rw [hsigned]
      exact congrArg (fun y => some (y, '-' :: rest)) hyear

/-- The decimals of a second are read back where no digit follows. -/
theorem readNanos_point {width n : Nat} (hwidth : 0 < width ∧ width ≤ 9) (h : n < Nat.pow 10 width)
    {rest : List Char} (hrest : ∀ c ∈ rest.head?, Text.isDigit c = false) :
    readNanos ('.' :: (Text.paddedDecimal width n ++ rest)) =
      some (n * Nat.pow 10 (9 - width), rest) := by
  have hdigits := IsDigits.paddedDecimal width n
  have hlength := Text.length_paddedDecimal hwidth.1 h
  have htake : ((Text.paddedDecimal width n ++ rest).take 9).takeWhile Text.isDigit =
      Text.paddedDecimal width n := by
    rw [List.take_append, hlength, List.take_of_length_le (by omega)]
    refine hdigits.takeWhile_append fun c hc => ?_
    rw [List.head?_take] at hc
    split at hc
    · cases hc
    · exact hrest c hc
  rw [readNanos]
  simp only [htake, hdigits.dropWhile_append hrest, Text.natOfDigits?_paddedDecimal,
    Option.map_some, hlength]

/-- Decimals are written in groups of three. -/
theorem fractionText_cases {nanos : Nat} (h : nanos < 1000000000) :
    (nanos = 0 ∧ fractionText nanos = []) ∨
      ∃ width n, (0 < width ∧ width ≤ 9) ∧ n < Nat.pow 10 width ∧
        n * Nat.pow 10 (9 - width) = nanos ∧
        fractionText nanos = '.' :: Text.paddedDecimal width n := by
  unfold fractionText
  split
  · next hzero => exact .inl ⟨beq_iff_eq.1 hzero, rfl⟩
  · refine .inr ?_
    split
    · next hmillis =>
      have hexact := Nat.div_mul_cancel (Nat.dvd_of_mod_eq_zero (beq_iff_eq.1 hmillis))
      exact ⟨3, nanos / 1000000, by decide, show _ < 1000 by omega, hexact, rfl⟩
    · split
      · next hmicros =>
        have hexact := Nat.div_mul_cancel (Nat.dvd_of_mod_eq_zero (beq_iff_eq.1 hmicros))
        exact ⟨6, nanos / 1000, by decide, show _ < 1000000 by omega, hexact, rfl⟩
      · exact ⟨9, nanos, by decide, h, Nat.mul_one nanos, rfl⟩

/-- Decimals are read back where neither a digit nor a point follows. -/
theorem readNanos_fractionText {nanos : Nat} (h : nanos < 1000000000) {rest : List Char}
    (hrest : ∀ c ∈ rest.head?, Text.isDigit c = false ∧ c ≠ '.') :
    readNanos (fractionText nanos ++ rest) = some (nanos, rest) := by
  obtain ⟨rfl, htext⟩ | ⟨width, n, hwidth, hn, rfl, htext⟩ := fractionText_cases h
  · rw [htext, List.nil_append]
    cases rest with
    | nil => rfl
    | cons c rest =>
      unfold readNanos
      split
      · next heq => exact absurd (List.cons.inj heq).1 (hrest c rfl).2
      · rfl
  · rw [htext]
    exact readNanos_point hwidth hn fun c hc => (hrest c hc).1

/-- A part that is read is handed on. -/
theorem bind_of_eq_some {α β : Type} {x : Option α} {a : α} (h : x = some a) (f : α → Option β) :
    (x >>= f) = f a := by
  rw [h]
  rfl

/-- The parts of a written time are read one after the other, up to a zone of no offset. -/
theorem read?_ofList (year : Int) {month day hour minute second nanos : Nat} {zone : List Char}
    (hmonth : month < 100) (hday : day < 100) (hhour : hour < 100) (hminute : minute < 100)
    (hsecond : second < 100) (hnanos : nanos < 1000000000)
    (hhead : ∀ c ∈ zone.head?, Text.isDigit c = false ∧ c ≠ '.')
    (hzone : readZone (Text.trimStart zone) = some (0, [])) :
    read? (String.ofList (yearText year ++ '-' :: (Text.paddedDecimal 2 month ++ '-' ::
      (Text.paddedDecimal 2 day ++ 'T' :: (Text.paddedDecimal 2 hour ++ ':' ::
      (Text.paddedDecimal 2 minute ++ ':' :: (Text.paddedDecimal 2 second ++
      (fractionText nanos ++ zone)))))))) =
      ofParts? year month day hour minute second nanos 0 := by
  have htwo {n : Nat} (hn : n < 100) (rest : List Char) :
      readNumber 2 (Text.paddedDecimal 2 n ++ rest) = some (n, rest) :=
    readNumber_paddedDecimal (by decide) hn rest
  have hhyphen (rest : List Char) := readMark_cons (show Text.isBlank '-' = false by decide) rest
  have hcolon (rest : List Char) := readMark_cons (show Text.isBlank ':' = false by decide) rest
  unfold read?
  rw [String.toList_ofList]
  refine (bind_of_eq_some (readYear_yearText _ _) _).trans ?_
  refine (bind_of_eq_some (hhyphen _) _).trans ?_
  refine (bind_of_eq_some (htwo hmonth _) _).trans ?_
  refine (bind_of_eq_some (hhyphen _) _).trans ?_
  refine (bind_of_eq_some (htwo hday _) _).trans ?_
  -- the letter in front of the hour
  refine (bind_of_eq_some rfl _).trans ?_
  refine (bind_of_eq_some (htwo hhour _) _).trans ?_
  refine (bind_of_eq_some (hcolon _) _).trans ?_
  refine (bind_of_eq_some (htwo hminute _) _).trans ?_
  refine (bind_of_eq_some (hcolon _) _).trans ?_
  refine (bind_of_eq_some (htwo hsecond _) _).trans ?_
  refine (bind_of_eq_some (readNanos_fractionText hnanos hhead) _).trans ?_
  exact bind_of_eq_some hzone _

/-! ## Points in time -/

/-- A point in time that exists: the time of a day, with a leap second only at the end of a minute,
in one of the years that have points in time. -/
structure IsPoint (t : Timestamp) : Prop where
  second_lt : t.second < 86400
  nanos_lt : t.nanos < 2000000000
  leap : 1000000000 ≤ t.nanos → t.second % 60 = 59
  year_mem : minYear ≤ (dateOfDay t.day).1 ∧ (dateOfDay t.day).1 ≤ maxYear

theorem isPoint_beginning : (⟨0, 0, 0⟩ : Timestamp).IsPoint where
  second_lt := by decide
  nanos_lt := by decide
  leap := by decide
  year_mem := by decide

namespace IsPoint

variable {t : Timestamp}

/-- The parts of a point in time give it again, whether or not the second is a leap second. -/
theorem ofParts?_eq (h : t.IsPoint) {second nanos : Nat} (hle : second ≤ 60)
    (hsecond : t.second % 60 = if second == 60 then 59 else second)
    (hnanos : t.nanos = nanos + if second == 60 then 1000000000 else 0) :
    ofParts? (dateOfDay t.day).1 (dateOfDay t.day).2.1 (dateOfDay t.day).2.2 (t.second / 3600)
      (t.second / 60 % 60) second nanos 0 = some t := by
  have hdate := isDate_dateOfDay t.day
  have hmonth := hdate.month_mem
  have hday := hdate.day_mem
  have hrange := h.second_lt
  have hyear := h.year_mem
  have hlocal : t.second / 3600 * 3600 + t.second / 60 % 60 * 60 + t.second % 60 = t.second := by
    omega
  unfold ofParts?
  rw [if_neg]
  · simp only [dayOfDate_dateOfDay, ← hsecond, hlocal, Int.sub_zero]
    have hutc : (t.day * 86400 + (t.second : Int)).fdiv 86400 = t.day := by
      rw [Int.fdiv_eq_ediv_of_nonneg _ (by decide)]
      omega
    have hrest : (t.day * 86400 + (t.second : Int) - t.day * 86400).toNat = t.second := by omega
    rw [hutc, if_neg, hrest, ← hnanos]
    simp only [Bool.or_eq_true, decide_eq_true_eq]
    omega
  · simp only [Bool.or_eq_true, decide_eq_true_eq]
    omega

/-- A point in time is read back when a zone of no offset follows it. -/
theorem read?_writeLocal (h : t.IsPoint) {zone : List Char}
    (hhead : ∀ c ∈ zone.head?, Text.isDigit c = false ∧ c ≠ '.')
    (hzone : readZone (Text.trimStart zone) = some (0, [])) :
    read? (String.ofList (t.writeLocal ++ zone)) = some t := by
  obtain ⟨⟨hmonth, hmonth'⟩, hday, hday'⟩ := isDate_dateOfDay t.day
  have hdays : daysInMonth (dateOfDay t.day).1 (dateOfDay t.day).2.1 ≤ 31 := by
    unfold daysInMonth
    split
    · split <;> decide
    · split <;> decide
  have hrange := h.second_lt
  have hnanos := h.nanos_lt
  have hread (second nanos : Nat) (hsecond : second ≤ 60) (hlt : nanos < 1000000000) :=
    read?_ofList (dateOfDay t.day).1 (show (dateOfDay t.day).2.1 < 100 by omega)
      (show (dateOfDay t.day).2.2 < 100 by omega) (show t.second / 3600 < 100 by omega)
      (show t.second / 60 % 60 < 100 by omega) (show second < 100 by omega) hlt hhead hzone
  have htext : t.writeLocal ++ zone = yearText (dateOfDay t.day).1 ++ '-' ::
      (Text.paddedDecimal 2 (dateOfDay t.day).2.1 ++ '-' ::
      (Text.paddedDecimal 2 (dateOfDay t.day).2.2 ++ 'T' ::
      (Text.paddedDecimal 2 (t.second / 3600) ++ ':' ::
      (Text.paddedDecimal 2 (t.second / 60 % 60) ++ ':' ::
      (Text.paddedDecimal 2 (t.second % 60 + if t.nanos ≥ 1000000000 then 1 else 0) ++
      (fractionText (if t.nanos ≥ 1000000000 then t.nanos - 1000000000 else t.nanos) ++
        zone)))))) := by
    simp [writeLocal, dateText, clockText]
  rw [htext]
  -- a leap second is written as the second 60 and read as the second 59 with more nanoseconds
  by_cases hleap : t.nanos ≥ 1000000000
  · have hlast := h.leap hleap
    simp only [if_pos hleap, hlast]
    rw [hread _ _ (by decide) (by omega)]
    exact h.ofParts?_eq (by decide) (by rw [hlast]; rfl) (by simp; omega)
  · have hne : (t.second % 60 == 60) = false := by simp; omega
    simp only [if_neg hleap, Nat.add_zero]
    rw [hread _ _ (by omega) (by omega)]
    exact h.ofParts?_eq (by omega) (by simp [hne]) (by simp [hne])

/-- A written point in time is read back. -/
theorem read?_write (h : t.IsPoint) : read? t.write = some t := by
  refine h.read?_writeLocal ?_ (by decide)
  rintro _ ⟨⟩
  decide

/-- So is one with the zone written as a letter. -/
theorem read?_writeZulu (h : t.IsPoint) : read? t.writeZulu = some t := by
  refine h.read?_writeLocal ?_ (by decide)
  rintro _ ⟨⟩
  decide

end IsPoint

end Timestamp

end Converge
