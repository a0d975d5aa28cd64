import Converge.Json.Reader
import Converge.Json.Render
import Converge.Proofs.Digits
import Mathlib.Algebra.Group.Int.Defs
/-!
# Written numbers

A `Literal` has a text of its own (`Literal.text`), which is read back wherever nothing that follows
could go on with it (`Literal.Valid.readNumber_text`).  What the library writes for an integer or a
double is such a text (`integerText_eq`, `Double.text_eq`).
-/

namespace Converge

open Text (isDigit)

namespace Json

/-- What follows cannot go on with a number. -/
def EndsNumber (rest : List Char) : Prop :=
  ∀ c ∈ rest.head?, isDigit c = false ∧ c ≠ '.' ∧ c ≠ 'e' ∧ c ≠ 'E'

theorem endsNumber_nil : EndsNumber [] := nofun

theorem endsNumber_cons {c : Char} {rest : List Char}
    (h : isDigit c = false ∧ c ≠ '.' ∧ c ≠ 'e' ∧ c ≠ 'E') : EndsNumber (c :: rest) :=
  fun _ hc => Option.some.inj hc ▸ h

/-! ## Texts of literals -/

namespace Literal

/-- The text of digits behind the point. -/
def fractionText : Option (List Char) → List Char
  | none => []
  | some digits => '.' :: digits

/-- The text of an exponent, always with its sign. -/
def exponentText : Option (Bool × List Char) → List Char
  | none => []
  | some (down, digits) => 'e' :: (if down then '-' else '+') :: digits

/-- The text of a literal. -/
def text (l : Literal) : List Char :=
  (if l.negative then ['-'] else []) ++ l.digits ++ fractionText l.fraction ++
    exponentText l.exponent

/-- A literal that a text can have. -/
structure Valid (l : Literal) : Prop where
  digits : IsDigits l.digits
  /-- No digit follows a zero in front. -/
  lead : l.digits.head? = some '0' → l.digits.length ≤ 1
  fraction : ∀ digits ∈ l.fraction, IsDigits digits
  exponent : ∀ exponent ∈ l.exponent, IsDigits exponent.2

end Literal

/-! ## Reading a literal -/

theorem readDigits_append {digits rest : List Char} (h : IsDigits digits)
    (hrest : ∀ c ∈ rest.head?, isDigit c = false) :
    readDigits (digits ++ rest) = some (digits, rest) := by
  have htake := h.takeWhile_append hrest
  have hdrop := h.dropWhile_append hrest
  obtain ⟨c, tail, rfl⟩ := List.exists_cons_of_ne_nil h.ne_nil
  rw [readDigits, htake, hdrop]

theorem readFraction_append {fraction : Option (List Char)} {rest : List Char}
    (h : ∀ digits ∈ fraction, IsDigits digits)
    (hrest : ∀ c ∈ rest.head?, isDigit c = false ∧ c ≠ '.') :
    readFraction (Literal.fractionText fraction ++ rest) = some (fraction, rest) := by
  cases fraction with
  | none =>
    show readFraction rest = _
    cases rest with
    | nil => rfl
    | cons c rest =>
      have hpoint : c ≠ '.' := (hrest c rfl).2
      rw [readFraction]
      rintro rest' ⟨⟩
      exact hpoint rfl
  | some digits =>
    show readFraction ('.' :: (digits ++ rest)) = _
    rw [readFraction, readDigits_append (h digits rfl) fun c hc => (hrest c hc).1]
    rfl

theorem readExponent_append {exponent : Option (Bool × List Char)} {rest : List Char}
    (h : ∀ e ∈ exponent, IsDigits e.2) (hrest : EndsNumber rest) :
    readExponent (Literal.exponentText exponent ++ rest) = some (exponent, rest) := by
  cases exponent with
  | none =>
    show readExponent rest = _
    cases rest with
    | nil => rfl
    | cons c rest =>
      obtain ⟨-, -, he, hE⟩ := hrest c rfl
      exact if_neg (by simp [he, hE])
  | some e =>
    obtain ⟨down, digits⟩ := e
    have hdigits := readDigits_append (h _ rfl) fun c hc => (hrest c hc).1
    cases down
    · show readExponent ('e' :: '+' :: (digits ++ rest)) = _
      simp [readExponent, hdigits]
    · show readExponent ('e' :: '-' :: (digits ++ rest)) = _
      simp [readExponent, hdigits]

/-- What follows the digits of a literal is none of them. -/
theorem head?_exponentText_append {exponent : Option (Bool × List Char)} {rest : List Char}
    (hrest : EndsNumber rest) :
    ∀ c ∈ (Literal.exponentText exponent ++ rest).head?, isDigit c = false ∧ c ≠ '.' := by
  cases exponent with
  | none => exact fun c hc => ⟨(hrest c hc).1, (hrest c hc).2.1⟩
  | some e =>
    intro c hc
    obtain rfl := Option.some.inj hc
    decide

theorem head?_fractionText_append (fraction : Option (List Char))
    (exponent : Option (Bool × List Char)) {rest : List Char} (hrest : EndsNumber rest) :
    ∀ c ∈ (Literal.fractionText fraction ++ (Literal.exponentText exponent ++ rest)).head?,
      isDigit c = false := by
  cases fraction with
  | none => exact fun c hc => (head?_exponentText_append hrest c hc).1
  | some digits =>
    intro c hc
    obtain rfl := Option.some.inj hc
    decide

/-- Reads a number from behind its sign. -/
def readMagnitude (negative : Bool) (s : List Char) : Option (Literal × List Char) := do
  let (digits, rest) ← readDigits s
  if digits.head? = some '0' && digits.length > 1 then none
  else
    let (fraction, rest) ← readFraction rest
    let (exponent, rest) ← readExponent rest
    some (⟨negative, digits, fraction, exponent⟩, rest)

theorem readNumber_minus (s : List Char) : readNumber ('-' :: s) = readMagnitude true s := rfl

theorem readNumber_of_head {s : List Char} (h : s.head? ≠ some '-') :
    readNumber s = readMagnitude false s := by
  unfold readNumber readMagnitude
  cases s with
  | nil => rfl
  | cons c rest =>
    have hc : c ≠ '-' := fun hminus => h (congrArg some hminus)
    simp [hc]

theorem Literal.Valid.readMagnitude_text {l : Literal} (h : l.Valid) {rest : List Char}
    (hrest : EndsNumber rest) (negative : Bool) :
    readMagnitude negative
        (l.digits ++ (fractionText l.fraction ++ (exponentText l.exponent ++ rest))) =
      some ({ l with negative }, rest) := by
  have hdigits := readDigits_append h.digits
    (head?_fractionText_append l.fraction l.exponent hrest)
  have hlead : ¬ (decide (l.digits.head? = some '0') && decide (l.digits.length > 1)) = true := by
    simpa using h.lead
  unfold readMagnitude
  rw [hdigits]
  simp only [Option.bind_eq_bind, Option.bind_some, if_neg hlead,
    readFraction_append h.fraction (head?_exponentText_append hrest),
    readExponent_append h.exponent hrest]

theorem Literal.Valid.readNumber_text {l : Literal} (h : l.Valid) {rest : List Char}
    (hrest : EndsNumber rest) : readNumber (l.text ++ rest) = some (l, rest) := by
  have hmagnitude := h.readMagnitude_text hrest l.negative
  rw [text, List.append_assoc, List.append_assoc, List.append_assoc]
  cases hsign : l.negative with
  | true =>
    -- the sign that was read is the literal's own
    rw [hsign] at hmagnitude
    exact (readNumber_minus _).trans (hmagnitude.trans (by rw [← hsign]))
  | false =>
    obtain ⟨d, tail, hcons⟩ := List.exists_cons_of_ne_nil h.digits.ne_nil
    have hd : Text.isDigit d := h.digits.isDigit d (by rw [hcons]; exact List.mem_cons_self)
    have hhead :
        (l.digits ++ (fractionText l.fraction ++ (exponentText l.exponent ++ rest))).head? ≠
          some '-' := by
      rw [hcons]
      rintro ⟨⟩
      cases hd
    rw [hsign] at hmagnitude
    exact (readNumber_of_head hhead).trans (hmagnitude.trans (by rw [← hsign]))

/-! ## Integers -/

/-- The literal of an integer. -/
def Literal.ofInt (n : Int) : Literal :=
  ⟨n < 0, Text.decimal n.natAbs, none, none⟩

theorem integerText_eq (n : Int) : integerText n = (Literal.ofInt n).text := by
  rw [integerText, Literal.text, Literal.ofInt]
  by_cases h : n < 0 <;> simp [h, Literal.fractionText, Literal.exponentText]

theorem Literal.valid_ofInt (n : Int) : (Literal.ofInt n).Valid where
  digits := .decimal _
  lead hzero := by
    show (Text.decimal n.natAbs).length ≤ 1
    rcases Nat.eq_zero_or_pos n.natAbs with h | h
    · simp [h, Text.decimal]
    · exact absurd hzero (Text.head?_decimal h)
  fraction := nofun
  exponent := nofun

/-- An integer that fits into 64 bits is the number that its text stands for. -/
theorem Literal.number?_ofInt {n : Int} (h : -2 ^ 63 ≤ n ∧ n < 2 ^ 64) :
    (Literal.ofInt n).number? = some (.int n) := by
  have hwhole : (Text.natOfDigits? 10 (Literal.ofInt n).digits).getD 0 = n.natAbs := by
    show (Text.natOfDigits? 10 (Text.decimal n.natAbs)).getD 0 = _
    rw [Text.natOfDigits?_decimal]
    rfl
  unfold Literal.number?
  simp only [hwhole]
  by_cases hneg : n < 0
  · have hle : n.natAbs ≤ Nat.pow 2 63 := by
      have : Nat.pow 2 63 = 2 ^ 63 := rfl
      omega
    have hpos : 0 < n.natAbs := by omega
    have hvalue : -(n.natAbs : Int) = n := by omega
    simp only [Literal.ofInt, hneg, hle, hpos, hvalue, Option.isNone_none, decide_true,
      Bool.not_true, Bool.and_self, Bool.and_false, Bool.false_and, Bool.false_eq_true, if_true,
      if_false]
  · have hlt : n.natAbs < Text.wordLimit := by
      have : Text.wordLimit = 2 ^ 64 := rfl
      omega
    have hvalue : (n.natAbs : Int) = n := by omega
    simp only [Literal.ofInt, hneg, hlt, hvalue, Option.isNone_none, decide_true, decide_false,
      Bool.not_false, Bool.and_self, if_true]

end Json

/-! ## Doubles -/

namespace Double

open Json (Literal)

/-- The literal that decimal digits are laid out as. -/
def layOutLiteral (negative : Bool) (digits : List Char) (exponent : Int) : Literal :=
  let first := (digits.length : Int) + exponent - 1
  if -5 ≤ first && first ≤ 15 then
    if exponent ≥ 0 then ⟨negative, digits ++ List.replicate exponent.toNat '0', some ['0'], none⟩
    else if first ≥ 0 then
      ⟨negative, digits.take (first.toNat + 1), some (digits.drop (first.toNat + 1)), none⟩
    else ⟨negative, ['0'], some (List.replicate (-first - 1).toNat '0' ++ digits), none⟩
  else
    ⟨negative, digits.take 1, if digits.length ≤ 1 then none else some (digits.drop 1),
      some (first < 0, Text.decimal first.natAbs)⟩

/-- The literal of a number. -/
def literal (x : Double) : Literal :=
  match x.decimal? with
  | none => ⟨x.isNegative, ['0'], some ['0'], none⟩
  | some (digits, exponent) => layOutLiteral x.isNegative (Text.decimal digits) exponent

theorem text_layOutLiteral (negative : Bool) {digits : List Char} (h : IsDigits digits)
    (exponent : Int) :
    (layOutLiteral negative digits exponent).text =
      (if negative then ['-'] else []) ++ layOut digits exponent := by
  obtain ⟨d, rest, rfl⟩ := List.exists_cons_of_ne_nil h.ne_nil
  unfold layOutLiteral layOut
  extract_lets first mantissa sign
  split
  · -- positional: all before the point, on both sides of it, or all behind it
    split
    · simp [Literal.text, Literal.fractionText, Literal.exponentText]
    · split <;> simp [Literal.text, Literal.fractionText, Literal.exponentText]
  · -- with an exponent
    have hsign : (if first < 0 then '-' else '+') = sign := by
      by_cases hfirst : first < 0
      · simp [sign, hfirst, Int.not_le.2 hfirst]
      · simp [sign, hfirst, Int.not_lt.1 hfirst]
    cases rest <;>
      simp [Literal.text, Literal.fractionText, Literal.exponentText, hsign, mantissa]

theorem valid_layOutLiteral (negative : Bool) {digits : List Char} (h : IsDigits digits)
    (hlead : digits.head? ≠ some '0') (exponent : Int) :
    (layOutLiteral negative digits exponent).Valid := by
  have hpoint : ∀ {behind : List Char}, IsDigits behind → ∀ ds ∈ some behind, IsDigits ds :=
    fun hbehind _ hds => Option.some.inj hds ▸ hbehind
  have hhead : ∀ {before : List Char}, before.head? = digits.head? →
      before.head? = some '0' → before.length ≤ 1 :=
    fun heq hzero => absurd (heq.symm.trans hzero) hlead
  have htake : ∀ n, (digits.take (n + 1)).head? = digits.head? := fun n => by
    cases digits <;> rfl
  unfold layOutLiteral
  extract_lets first
  -- the cases are those of the layout: positional in three ways, or with an exponent
  split
  · split
    · refine ⟨h.append_zeros _, hhead ?_, hpoint isDigits_zero, nofun⟩
      rw [List.head?_append, List.head?_eq_some_head h.ne_nil]
      rfl
    · split
      · next hexponent hfirst =>
        have hbehind : first.toNat + 1 < digits.length := by omega
        exact ⟨h.take _, hhead (htake _), hpoint (h.drop hbehind), nofun⟩
      · exact ⟨isDigits_zero, fun _ => Nat.le_refl 1, hpoint (h.zeros_append _), nofun⟩
  · refine ⟨h.take 0, hhead (htake 0), ?_, fun e he => Option.some.inj he ▸ .decimal _⟩
    split
    · exact nofun
    · next hlength => exact hpoint (h.drop (Nat.not_le.1 hlength))

theorem text_eq (x : Double) : x.text = x.literal.text := by
  unfold text literal
  cases x.decimal? with
  | none => simp [Literal.text, Literal.fractionText, Literal.exponentText]
  | some decimal => rw [text_layOutLiteral _ (.decimal _)]

theorem valid_literal (x : Double) : x.literal.Valid := by
  unfold literal
  cases h : x.decimal? with
  | none =>
    exact ⟨isDigits_zero, fun _ => Nat.le_refl 1, fun _ hd => Option.some.inj hd ▸ isDigits_zero,
      nofun⟩
  | some decimal =>
    exact valid_layOutLiteral _ (.decimal _) (Text.head?_decimal (pos_of_decimal? h)) _

end Double

end Converge
