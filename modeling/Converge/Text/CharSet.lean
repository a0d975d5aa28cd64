/-!
# Sets of characters

A set of characters as the runs of its code points, which is how the data of Unicode is written
down.
-/

namespace Converge.Text

/-- A set of characters: the first and the last code point of each run. -/
structure CharSet where
  runs : List (Nat × Nat)

namespace CharSet

instance : Membership Char CharSet where
  mem s c := ∃ run ∈ s.runs, run.1 ≤ c.toNat ∧ c.toNat ≤ run.2

instance (c : Char) (s : CharSet) : Decidable (c ∈ s) :=
  inferInstanceAs (Decidable (∃ run ∈ s.runs, run.1 ≤ c.toNat ∧ c.toNat ≤ run.2))

end CharSet

end Converge.Text
