/-!
# Splitting text at a separator

`splitFirst` cuts at the first separator and `splitLast` at the last one.  Main statements: putting
the parts together gives the text back (`eq_append_of_splitFirst`, `eq_append_of_splitLast`), and
the part that a cut leaves whole has no separator (`not_mem_of_splitFirst`,
`not_mem_of_splitLast`).
-/

namespace Converge.Text

/-- The text before the first `sep` and, when there is one, the text after it. -/
def splitFirst (sep : Char) : List Char → List Char × Option (List Char)
  | [] => ([], none)
  | c :: rest =>
    if c = sep then ([], some rest)
    else
      let cut := splitFirst sep rest
      (c :: cut.1, cut.2)

/-- The texts before and after the last `sep`, when there is one. -/
def splitLast (sep : Char) : List Char → Option (List Char × List Char)
  | [] => none
  | c :: rest =>
    match splitLast sep rest with
    | some (before, after) => some (c :: before, after)
    | none => if c = sep then some ([], rest) else none

/-- All the parts between separators, one more than there are separators. -/
def splitAll (sep : Char) : List Char → List (List Char)
  | [] => [[]]
  | c :: rest =>
    if c = sep then [] :: splitAll sep rest
    else
      match splitAll sep rest with
      | [] => [[c]]
      | part :: parts => (c :: part) :: parts

/-! ## The parts of a cut -/

theorem not_mem_of_splitFirst (sep : Char) (s : List Char) : sep ∉ (splitFirst sep s).1 := by
  induction s with
  | nil => simp [splitFirst]
  | cons c rest ih =>
    by_cases h : c = sep
    · simp [splitFirst, h]
    · rw [splitFirst, if_neg h]
      exact List.not_mem_cons_of_ne_of_not_mem (Ne.symm h) ih

theorem eq_append_of_splitFirst {sep : Char} {s a b : List Char}
    (h : splitFirst sep s = (a, some b)) : s = a ++ sep :: b := by
  induction s generalizing a with
  | nil => simp [splitFirst] at h
  | cons c rest ih =>
    by_cases hc : c = sep
    · simp_all [splitFirst]
    · simp only [splitFirst, hc, if_false, Prod.mk.injEq] at h
      obtain ⟨rfl, h⟩ := h
      exact congrArg (c :: ·) (ih (Prod.ext rfl h))

theorem eq_of_splitFirst_none {sep : Char} {s a : List Char}
    (h : splitFirst sep s = (a, none)) : s = a := by
  induction s generalizing a with
  | nil => simp_all [splitFirst]
  | cons c rest ih =>
    by_cases hc : c = sep
    · simp [splitFirst, hc] at h
    · simp only [splitFirst, hc, if_false, Prod.mk.injEq] at h
      obtain ⟨rfl, h⟩ := h
      exact congrArg _ (ih (Prod.ext rfl h))

theorem splitFirst_append {sep : Char} {a : List Char} (b : List Char) (h : sep ∉ a) :
    splitFirst sep (a ++ sep :: b) = (a, some b) := by
  induction a with
  | nil => simp [splitFirst]
  | cons c rest ih =>
    simp only [List.mem_cons, not_or] at h
    simp [splitFirst, Ne.symm h.1, ih h.2]

theorem splitFirst_of_not_mem {sep : Char} {a : List Char} (h : sep ∉ a) :
    splitFirst sep a = (a, none) := by
  induction a with
  | nil => rfl
  | cons c rest ih =>
    simp only [List.mem_cons, not_or] at h
    simp [splitFirst, Ne.symm h.1, ih h.2]

theorem splitLast_eq_none_iff {sep : Char} {s : List Char} :
    splitLast sep s = none ↔ sep ∉ s := by
  induction s with
  | nil => simp [splitLast]
  | cons c rest ih =>
    rw [splitLast]
    split
    · next h => simp [← ih, h]
    · next h =>
      by_cases hc : c = sep
      · simp [hc]
      · simp [hc, Ne.symm hc, ih.1 h]

theorem eq_append_of_splitLast {sep : Char} {s a b : List Char}
    (h : splitLast sep s = some (a, b)) : s = a ++ sep :: b := by
  induction s generalizing a with
  | nil => simp [splitLast] at h
  | cons c rest ih =>
    rw [splitLast] at h
    split at h
    · next before after hrest =>
      simp only [Option.some.injEq, Prod.mk.injEq] at h
      obtain ⟨rfl, rfl⟩ := h
      simp [ih hrest]
    · split at h <;> simp_all

theorem not_mem_of_splitLast {sep : Char} {s a b : List Char}
    (h : splitLast sep s = some (a, b)) : sep ∉ b := by
  induction s generalizing a with
  | nil => simp [splitLast] at h
  | cons c rest ih =>
    rw [splitLast] at h
    split at h
    · next before after hrest =>
      simp only [Option.some.injEq, Prod.mk.injEq] at h
      obtain ⟨rfl, rfl⟩ := h
      exact ih hrest
    · next hrest =>
      split at h
      · simp only [Option.some.injEq, Prod.mk.injEq] at h
        exact h.2 ▸ splitLast_eq_none_iff.1 hrest
      · simp at h

theorem splitLast_append {sep : Char} (a : List Char) {b : List Char} (h : sep ∉ b) :
    splitLast sep (a ++ sep :: b) = some (a, b) := by
  induction a with
  | nil => simp [splitLast, splitLast_eq_none_iff.2 h]
  | cons c rest ih => simp [splitLast, ih]

/-! ## All parts -/

theorem splitAll_ne_nil (sep : Char) (s : List Char) : splitAll sep s ≠ [] := by
  cases s with
  | nil => exact List.cons_ne_nil _ _
  | cons c rest =>
    rw [splitAll]
    split
    · exact List.cons_ne_nil _ _
    · split <;> exact List.cons_ne_nil _ _

theorem splitAll_append (sep : Char) (a b : List Char) :
    splitAll sep (a ++ sep :: b) = splitAll sep a ++ splitAll sep b := by
  induction a with
  | nil => simp [splitAll]
  | cons c rest ih =>
    rw [List.cons_append, splitAll, splitAll, ih]
    split
    · rfl
    · cases hparts : splitAll sep rest with
      | nil => exact absurd hparts (splitAll_ne_nil sep rest)
      | cons part parts => rfl

theorem splitAll_of_not_mem {sep : Char} {s : List Char} (h : sep ∉ s) : splitAll sep s = [s] := by
  induction s with
  | nil => rfl
  | cons c rest ih =>
    obtain ⟨hc, hrest⟩ := not_or.1 (mt List.mem_cons.2 h)
    rw [splitAll, if_neg (Ne.symm hc), ih hrest]

end Converge.Text
