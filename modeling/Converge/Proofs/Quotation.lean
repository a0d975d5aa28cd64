import Converge.Json.Reader
import Converge.Json.Render
/-!
# Quoted strings

Main statement: what `quote` writes is read back as the same text, whatever follows it
(`readString_quote`).
-/

namespace Converge.Json

/-- The part of a string that a character is written as: a control character without a short form
is written as a code unit. -/
def pieceOf (c : Char) : Piece :=
  if c.toNat < 32 ∧ c ∉ ['\n', '\r', '\t', '\x08', '\x0c'] then .unit c.toNat else .char c

/-! ## Reading the parts -/

/-- A backslash and a letter. -/
theorem readPieces_short {letter c : Char} (s : List Char) (h : unescape? letter = some c) :
    readPieces ('\\' :: letter :: s) =
      (readPieces s).map fun (pieces, rest) => (.char c :: pieces, rest) := by
  have hu : letter ≠ 'u' := by
    rintro rfl
    cases h
  rw [readPieces, h]
  · cases readPieces s <;> rfl
  · rintro _ _ _ _ _ ⟨⟩
    exact absurd rfl hu

/-- A backslash, the letter `u` and four digits. -/
theorem readPieces_unit {a b c d : Char} {n : Nat} (s : List Char)
    (h : codeUnit? a b c d = some n) :
    readPieces ('\\' :: 'u' :: a :: b :: c :: d :: s) =
      (readPieces s).map fun (pieces, rest) => (.unit n :: pieces, rest) := by
  rw [readPieces, h]
  cases readPieces s <;> rfl

/-- A character that stands for itself. -/
theorem readPieces_plain {c : Char} (s : List Char) (hquote : c ≠ '"') (hbackslash : c ≠ '\\')
    (hcontrol : ¬ c.toNat < 32) :
    readPieces (c :: s) = (readPieces s).map fun (pieces, rest) => (.char c :: pieces, rest) := by
  rw [readPieces]
  · cases readPieces s with
    | none => rfl
    | some read => simp [hcontrol]
  · exact hquote
  · rintro _ _ _ _ _ rfl
    exact absurd rfl hbackslash
  · rintro _ _ rfl
    exact absurd rfl hbackslash

/-- The two digits of a control character denote it. -/
theorem codeUnit?_hexDigits :
    ∀ n < 32, codeUnit? '0' '0' (hexDigit (n / 16)) (hexDigit (n % 16)) = some n := by
  decide

theorem readPieces_escape (c : Char) (s : List Char) :
    readPieces (escape c ++ s) =
      (readPieces s).map fun (pieces, rest) => (pieceOf c :: pieces, rest) := by
  -- a character has a short escape, or is a control character, or stands for itself
  by_cases hshort : c ∈ ['"', '\\', '\n', '\r', '\t', '\x08', '\x0c']
  · simp only [List.mem_cons, List.not_mem_nil, or_false] at hshort
    rcases hshort with rfl | rfl | rfl | rfl | rfl | rfl | rfl <;> exact readPieces_short s rfl
  · simp only [List.mem_cons, List.not_mem_nil, or_false, not_or] at hshort
    obtain ⟨hquote, hbackslash, hn, hr, ht, hb, hf⟩ := hshort
    by_cases hcontrol : c.toNat < 32
    · have hpiece : pieceOf c = .unit c.toNat := by simp [pieceOf, *]
      have hescape : escape c =
          ['\\', 'u', '0', '0', hexDigit (c.toNat / 16), hexDigit (c.toNat % 16)] := by
        simp [escape, *]
      rw [hpiece, hescape]
      exact readPieces_unit s (codeUnit?_hexDigits c.toNat hcontrol)
    · have hpiece : pieceOf c = .char c := by simp [pieceOf, hcontrol]
      have hescape : escape c = [c] := by simp [escape, *]
      rw [hpiece, hescape]
      exact readPieces_plain s hquote hbackslash hcontrol

/-! ## Joining the parts -/

theorem joinPieces_unit {n : Nat} (h : n < 32) (pieces : List Piece) :
    joinPieces (.unit n :: pieces) = (joinPieces pieces).map (Char.ofNat n :: ·) := by
  have hhigh : isHighSurrogate n = false := by
    simp only [isHighSurrogate, Bool.and_eq_false_iff, decide_eq_false_iff_not]
    omega
  have hlow : isLowSurrogate n = false := by
    simp only [isLowSurrogate, Bool.and_eq_false_iff, decide_eq_false_iff_not]
    omega
  rcases pieces with _ | ⟨_ | _, rest⟩ <;> simp [joinPieces, hhigh, hlow]

theorem joinPieces_map (chars : List Char) : joinPieces (chars.map pieceOf) = some chars := by
  induction chars with
  | nil => rfl
  | cons c chars ih =>
    rw [List.map_cons]
    by_cases hunit : c.toNat < 32 ∧ c ∉ ['\n', '\r', '\t', '\x08', '\x0c']
    · rw [pieceOf, if_pos hunit, joinPieces_unit hunit.1, ih]
      simp [Char.ofNat_toNat]
    · rw [pieceOf, if_neg hunit, joinPieces, ih]
      rfl

/-! ## Quotes -/

/-- A quoted text is read back from behind its opening quote. -/
theorem readString_quote (text : String) (rest : List Char) :
    readString (text.toList.flatMap escape ++ '"' :: rest) = some (some text, rest) := by
  have hpieces : ∀ chars : List Char, readPieces (chars.flatMap escape ++ '"' :: rest) =
      some (chars.map pieceOf, rest) := by
    intro chars
    induction chars with
    | nil => rfl
    | cons c chars ih =>
      rw [List.flatMap_cons, List.append_assoc, readPieces_escape, ih]
      rfl
  rw [readString, hpieces, Option.map_some]
  simp only [joinPieces_map, Option.map_some, String.ofList_toList]

end Converge.Json
