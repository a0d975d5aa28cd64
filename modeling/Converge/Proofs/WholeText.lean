import Converge.Proofs.DocumentText
/-!
# Texts by their numbers

What the numbers of a text have to be, as a condition on every literal in it.  Main statements: the
fields of a structure meet the condition that the text meets (`Tree.Numbers.slot`), and a value that
is read from a text whose numbers are integers of 64 bits is steady, so it comes back from its own
text as it was (`Tree.Numbers.steady`).  A wider integer is read as a double and may not.
-/

namespace Converge

namespace Json

/-! ## The numbers of a text -/

/-- An integer, as a number is written: minus zero is one. -/
def Literal.IsInteger (l : Literal) : Prop :=
  l.fraction = none ∧ l.exponent = none

/-- An integer of 64 bits, with or without a sign. -/
def Literal.IsWord (l : Literal) : Prop :=
  l.IsInteger ∧ ∃ n, Text.natOfDigits? 10 l.digits = some n ∧
    n ≤ if l.negative then 2 ^ 63 else 2 ^ 64 - 1

/-- Every number in a text is an allowed one. -/
inductive Tree.Numbers (allowed : Literal → Prop) : Tree → Prop
  | null : Numbers allowed .null
  | bool (b : Bool) : Numbers allowed (.bool b)
  | number {l : Literal} (h : allowed l) : Numbers allowed (.number l)
  | str (text : Option String) : Numbers allowed (.str text)
  | arr {items : List Tree} (h : ∀ item ∈ items, item.Numbers allowed) :
      Numbers allowed (.arr items)
  | obj {fields : List (Option String × Tree)} (h : ∀ field ∈ fields, field.2.Numbers allowed) :
      Numbers allowed (.obj fields)

/-! ## Minus zero -/

theorem sub_eq_of_digit? {c : Char} {d : Nat} (h : Text.digit? 10 c = some d) :
    c.toNat - 48 = d := by
  obtain ⟨hvalue, hlt⟩ := Option.filter_eq_some_iff.1 h
  have hlt := of_decide_eq_true hlt
  split at hvalue
  · exact Option.some.inj hvalue
  · split at hvalue
    · next hlower =>
      simp only [Bool.and_eq_true, decide_eq_true_eq, Char.le_def, UInt32.le_iff_toNat_le] at hlower
      have h97 : 'a'.val.toNat = 97 := rfl
      have hc : c.val.toNat = c.toNat := rfl
      have := Option.some.inj hvalue
      omega
    · split at hvalue
      · next hupper =>
        simp only [Bool.and_eq_true, decide_eq_true_eq, Char.le_def,
          UInt32.le_iff_toNat_le] at hupper
        have h65 : 'A'.val.toNat = 65 := rfl
        have hc : c.val.toNat = c.toNat := rfl
        have := Option.some.inj hvalue
        omega
      · cases hvalue

theorem takeWhole_of_zero : ∀ {digits : List Char} {n : Nat},
    digits.foldlM (fun n c => (Text.digit? 10 c).map (n * 10 + ·)) n = some 0 →
      n = 0 ∧ Literal.takeWhole digits ⟨0, 0, 0⟩ = ⟨0, 0, 0⟩
  | [], n, h => ⟨Option.some.inj h, rfl⟩
  | c :: rest, n, h => by
    rw [List.foldlM_cons] at h
    obtain ⟨next, hnext, hrest⟩ := Option.bind_eq_some_iff.1 h
    obtain ⟨d, hd, rfl⟩ := Option.map_eq_some_iff.1 hnext
    obtain ⟨hzero, htake⟩ := takeWhole_of_zero hrest
    have hc := sub_eq_of_digit? hd
    obtain ⟨rfl, rfl⟩ : n = 0 ∧ d = 0 := by omega
    have hnot : ¬ (0 ≥ Text.wordLimit) := by decide
    refine ⟨rfl, ?_⟩
    rw [Literal.takeWhole]
    simp [hc, hnot, htake]

theorem isSteady_zero : (Double.zero true).IsSteady := by
  have hreal : (Double.zero true).literal.real? = some (.zero true) := by decide +kernel
  show Option.map Json.real (Double.zero true).literal.real? = _
  rw [hreal]
  rfl

theorem Literal.IsWord.steady {l : Literal} (h : l.IsWord) {value : Json}
    (hvalue : l.number? = some value) : value.Steady := by
  obtain ⟨negative, digits, fraction, exponent⟩ := l
  obtain ⟨⟨rfl, rfl⟩, n, hn, hle⟩ := h
  have hword : Text.wordLimit = 2 ^ 64 := rfl
  have hhalf : Nat.pow 2 63 = 2 ^ 63 := rfl
  cases negative with
  | false =>
    have hlt : n < Text.wordLimit := by
      simp only [Bool.false_eq_true, if_false] at hle
      omega
    simp [Literal.number?, hn, hlt] at hvalue
    obtain rfl := hvalue
    exact .int _
  | true =>
    simp only [if_true] at hle
    by_cases hzero : n = 0
    · subst hzero
      have htake : Literal.takeWhole digits ⟨0, 0, 0⟩ = ⟨0, 0, 0⟩ := by
        unfold Text.natOfDigits? at hn
        split at hn
        · cases hn
        · exact (takeWhole_of_zero hn).2
      have hreal : Literal.real? ⟨true, digits, none, none⟩ = some (.zero true) := by
        simp only [Literal.real?, htake, Option.getD_none, Literal.takeFraction]
        rfl
      simp [Literal.number?, hn, hreal] at hvalue
      obtain rfl := hvalue
      exact .real isSteady_zero
    · have hpos : 0 < n := Nat.pos_of_ne_zero hzero
      simp only [Literal.number?, hn, Option.getD_some, Option.isNone_none, Bool.and_true,
        Bool.not_true, Bool.and_false, Bool.false_and, Bool.false_eq_true, if_false,
        hpos, decide_true, hhalf, hle, if_true, Option.some.injEq] at hvalue
      obtain rfl := hvalue
      exact .int _

/-! ## Values -/

theorem Tree.value?.exists_of_mem_items? {levels : Nat} {items : List Tree} {values : List Json}
    (h : Tree.value?.items? levels items = some values) :
    ∀ value ∈ values, ∃ item ∈ items, item.value? levels = some value := by
  induction items generalizing values with
  | nil =>
    cases h
    exact List.forall_mem_nil _
  | cons item rest ih =>
    obtain ⟨first, hfirst, h⟩ := Option.bind_eq_some_iff.1 h
    obtain ⟨others, hothers, h⟩ := Option.bind_eq_some_iff.1 h
    obtain rfl := Option.some.inj h
    refine List.forall_mem_cons.2 ⟨⟨item, List.mem_cons_self, hfirst⟩, fun value hmem => ?_⟩
    obtain ⟨other, hother, hread⟩ := ih hothers value hmem
    exact ⟨other, List.mem_cons_of_mem _ hother, hread⟩

theorem Tree.value?.exists_of_mem_fields? {levels : Nat} {fields : List (Option String × Tree)}
    {values : List (String × Json)} (h : Tree.value?.fields? levels fields = some values) :
    ∀ value ∈ values, ∃ field ∈ fields, field.2.value? levels = some value.2 := by
  induction fields generalizing values with
  | nil =>
    cases h
    exact List.forall_mem_nil _
  | cons field rest ih =>
    obtain ⟨name, -, h⟩ := Option.bind_eq_some_iff.1 h
    obtain ⟨first, hfirst, h⟩ := Option.bind_eq_some_iff.1 h
    obtain ⟨others, hothers, h⟩ := Option.bind_eq_some_iff.1 h
    obtain rfl := Option.some.inj h
    refine List.forall_mem_cons.2 ⟨⟨field, List.mem_cons_self, hfirst⟩, fun value hmem => ?_⟩
    obtain ⟨other, hother, hread⟩ := ih hothers value hmem
    exact ⟨other, List.mem_cons_of_mem _ hother, hread⟩

/-- A value from a text of integers of 64 bits is steady. -/
theorem Tree.Numbers.steady {tree : Tree} (h : tree.Numbers Literal.IsWord) {levels : Nat}
    {value : Json} (hvalue : tree.value? levels = some value) : value.Steady := by
  induction h generalizing levels value with
  | null =>
    cases hvalue
    exact .null
  | bool b =>
    cases hvalue
    exact .bool b
  | number h => exact h.steady hvalue
  | str text =>
    obtain ⟨text, -, rfl⟩ := Option.map_eq_some_iff.1 hvalue
    exact .str text
  | arr _ ih =>
    cases levels with
    | zero => cases hvalue
    | succ levels =>
      obtain ⟨values, hvalues, rfl⟩ := Option.map_eq_some_iff.1 hvalue
      refine .arr fun item hmem => ?_
      obtain ⟨tree, htree, hread⟩ := Tree.value?.exists_of_mem_items? hvalues item hmem
      exact ih tree htree hread
  | obj _ ih =>
    cases levels with
    | zero => cases hvalue
    | succ levels =>
      obtain ⟨values, hvalues, rfl⟩ := Option.map_eq_some_iff.1 hvalue
      refine .obj fun field hmem => ?_
      obtain ⟨tree, htree, hread⟩ :=
        Tree.value?.exists_of_mem_fields? hvalues field (Dict.mem_of_mem_ofList hmem)
      exact ih tree htree hread

/-- The numbers in a field of a structure are numbers of the text. -/
theorem Tree.Numbers.slot {allowed : Literal → Prop} {tree : Tree} (h : tree.Numbers allowed)
    {names : List String} {levels : Nat} {fields : Fields}
    (hfields : Fields.ofTree? names levels tree = some fields) {name : String}
    {field : Tree} (hslot : fields.slot name = some field) : field.Numbers allowed := by
  unfold Fields.ofTree? at hfields
  split at hfields
  · dsimp only at hfields
    split at hfields
    · obtain rfl := Option.some.inj hfields
      cases h with
      | obj hall =>
        obtain ⟨before, after, rfl, -⟩ := List.lookup_eq_some_iff.1 hslot
        exact hall (some name, field) (List.mem_append_right _ List.mem_cons_self)
    · cases hfields
  · split at hfields
    · obtain rfl := Option.some.inj hfields
      cases h with
      | arr hall =>
        obtain ⟨place, -, hitem⟩ := Option.bind_eq_some_iff.1 hslot
        exact hall field (List.mem_of_getElem? hitem)
    · cases hfields
  · cases hfields

end Json

end Converge
