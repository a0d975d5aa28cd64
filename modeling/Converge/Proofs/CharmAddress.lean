import Converge.Charm
import Converge.Proofs.Digits
/-!
# Reading charm addresses

The last segment of an address is a name, or a name with the digits of a revision behind a dash.
Main statement: taking an address apart loses nothing of that segment, and the revision is the
number that the digits denote, if it fits (`Charm.parse_losesNothing`).
-/

namespace Converge.Charm

theorem toList_around (c : Char) {sep : String} (h : sep.toList = [c]) (before after : String) :
    (before ++ sep ++ after).toList = before.toList ++ c :: after.toList := by
  rw [String.toList_append, String.toList_append, h, List.append_assoc, List.singleton_append]

/-! ## The last segment -/

/-- What follows the first colon of an address, or all of an address without one. -/
inductive IsPath : String → String → Prop
  | whole {address : String} (h : ':' ∉ address.toList) : IsPath address address
  | behind {scheme : String} (h : ':' ∉ scheme.toList) (path : String) :
    IsPath (scheme ++ ":" ++ path) path

/-- What follows the last slash of a path, or all of a path without one. -/
inductive IsLast : String → String → Prop
  | whole {path : String} (h : '/' ∉ path.toList) : IsLast path path
  | behind (front : String) {last : String} (h : '/' ∉ last.toList) :
    IsLast (front ++ "/" ++ last) last

/-- The last segment of an address. -/
def IsSegment (address last : String) : Prop :=
  ∃ path, IsPath address path ∧ IsLast path last

theorem exists_isPath (address : String) : ∃ path, IsPath address path := by
  have hscheme := Text.not_mem_of_splitFirst ':' address.toList
  rcases hcut : Text.splitFirst ':' address.toList with ⟨scheme, _ | path⟩
  · rw [hcut, ← Text.eq_of_splitFirst_none hcut] at hscheme
    exact ⟨address, .whole hscheme⟩
  · rw [hcut] at hscheme
    obtain rfl : address = .ofList scheme ++ ":" ++ .ofList path := String.toList_inj.1 <| by
      rw [toList_around ':' rfl, Text.eq_append_of_splitFirst hcut, String.toList_ofList,
        String.toList_ofList]
    exact ⟨.ofList path, .behind (by rwa [String.toList_ofList]) _⟩

theorem exists_isLast (path : String) : ∃ last, IsLast path last := by
  cases hcut : Text.splitLast '/' path.toList with
  | none => exact ⟨path, .whole (Text.splitLast_eq_none_iff.1 hcut)⟩
  | some cut =>
    obtain ⟨front, last⟩ := cut
    have hlast := Text.not_mem_of_splitLast hcut
    obtain rfl : path = .ofList front ++ "/" ++ .ofList last := String.toList_inj.1 <| by
      rw [toList_around '/' rfl, Text.eq_append_of_splitLast hcut, String.toList_ofList,
        String.toList_ofList]
    exact ⟨.ofList last, .behind _ (by rwa [String.toList_ofList])⟩

theorem exists_isSegment (address : String) : ∃ last, IsSegment address last := by
  obtain ⟨path, hpath⟩ := exists_isPath address
  obtain ⟨last, hlast⟩ := exists_isLast path
  exact ⟨last, path, hpath, hlast⟩

theorem IsPath.splitFirst_eq {address path : String} (h : IsPath address path) :
    ((Text.splitFirst ':' address.toList).2.getD (Text.splitFirst ':' address.toList).1) =
      path.toList := by
  cases h with
  | whole h =>
    rw [Text.splitFirst_of_not_mem h]
    rfl
  | behind h path =>
    rw [toList_around ':' rfl, Text.splitFirst_append _ h]
    rfl

/-- The last segment is the one that is taken apart. -/
theorem IsSegment.segment_eq {address last : String} (h : IsSegment address last) :
    segment address.toList = last.toList := by
  obtain ⟨path, hpath, hlast⟩ := h
  unfold segment
  dsimp only
  rw [hpath.splitFirst_eq]
  cases hlast with
  | whole h => rw [Text.splitLast_eq_none_iff.2 h]
  | behind front h => rw [toList_around '/' rfl, Text.splitLast_append _ h]

theorem IsSegment.iff_eq {address last : String} (h : IsSegment address last) {other : String} :
    IsSegment address other ↔ other = last := by
  constructor
  · intro hother
    exact String.toList_inj.1 (hother.segment_eq.symm.trans h.segment_eq)
  · rintro rfl
    exact h

/-! ## Revisions -/

/-- A name with digits behind a dash. -/
def IsNumbered (last name digits : String) : Prop :=
  last = name ++ "-" ++ digits ∧ name ≠ "" ∧ IsDigits digits.toList

theorem splitRevision_append {name digits : List Char} (hname : name ≠ [])
    (hdigits : IsDigits digits) : splitRevision (name ++ '-' :: digits) = some (name, digits) := by
  have hdash : '-' ∉ digits := fun hmem => absurd (hdigits.isDigit '-' hmem) (by decide)
  have hall : digits.all Text.isDigit := List.all_eq_true.2 hdigits.isDigit
  rw [splitRevision, Text.splitLast_append name hdash, Option.filter_some, if_pos]
  simp [hname, hdigits.ne_nil, hall]

theorem isDigits_of_splitRevision {segment name digits : List Char}
    (h : splitRevision segment = some (name, digits)) : name ≠ [] ∧ IsDigits digits := by
  have hkept := (Option.filter_eq_some_iff.1 h).2
  simp only [Bool.and_eq_true, Bool.not_eq_true', List.isEmpty_eq_false_iff] at hkept
  exact ⟨hkept.1.1, hkept.1.2, List.all_eq_true.1 hkept.2⟩

namespace IsSegment

variable {address last : String}

/-- A numbered segment is taken apart at its last dash: the digits have none. -/
theorem of_isNumbered (h : IsSegment address last) {name digits : String}
    (hnumbered : IsNumbered last name digits) :
    nameOf address = name ∧ revisionOf address = some digits := by
  obtain ⟨rfl, hname, hdigits⟩ := hnumbered
  have hsplit : splitRevision (segment address.toList) = some (name.toList, digits.toList) := by
    rw [h.segment_eq, toList_around '-' rfl]
    exact splitRevision_append (by simpa using hname) hdigits
  unfold nameOf revisionOf
  dsimp only
  rw [hsplit]
  exact ⟨String.ofList_toList, congrArg some String.ofList_toList⟩

theorem of_not_isNumbered (h : IsSegment address last)
    (hnumbered : ∀ name digits, ¬ IsNumbered last name digits) :
    nameOf address = last ∧ revisionOf address = none := by
  have hsplit : splitRevision (segment address.toList) = none := by
    rw [h.segment_eq, Option.eq_none_iff_forall_ne_some]
    rintro ⟨name, digits⟩ hsome
    obtain ⟨hname, hdigits⟩ := isDigits_of_splitRevision hsome
    refine hnumbered (.ofList name) (.ofList digits) ⟨String.toList_inj.1 ?_, ?_, ?_⟩
    · rw [toList_around '-' rfl, segment_eq_of_splitRevision hsome, String.toList_ofList,
        String.toList_ofList]
    · simpa using hname
    · rwa [String.toList_ofList]
  unfold nameOf revisionOf
  dsimp only
  rw [hsplit, h.segment_eq]
  exact ⟨String.ofList_toList, rfl⟩

/-- A revision is given just if the segment is numbered. -/
theorem revisionOf_eq_some_iff (h : IsSegment address last) {digits : String} :
    revisionOf address = some digits ↔ IsNumbered last (nameOf address) digits := by
  constructor
  · intro hrevision
    by_cases hnumbered : ∃ name digits, IsNumbered last name digits
    · obtain ⟨name, found, hfound⟩ := hnumbered
      obtain ⟨rfl, hsome⟩ := h.of_isNumbered hfound
      obtain rfl := Option.some.inj (hrevision.symm.trans hsome)
      exact hfound
    · have hnone := h.of_not_isNumbered fun name found hfound => hnumbered ⟨name, found, hfound⟩
      cases hnone.2.symm.trans hrevision
  · exact fun hnumbered => (h.of_isNumbered hnumbered).2

end IsSegment

/-- The revision of a charm is the number that the digits denote, if it fits into 64 bits. -/
theorem revision_parse_eq_some_iff {address : String} {n : Nat} :
    (parse address).revision = some n ↔ ∃ digits, revisionOf address = some digits ∧
      Text.number digits.toList = n ∧ n < 2 ^ 64 := by
  obtain ⟨last, hsegment⟩ := exists_isSegment address
  have hlimit : Text.wordLimit = 2 ^ 64 := by decide
  unfold parse
  dsimp only
  rw [Option.bind_eq_some_iff]
  refine exists_congr fun digits => and_congr_right fun hrevision => ?_
  have hdigits := (hsegment.revisionOf_eq_some_iff.1 hrevision).2.2
  rw [hdigits.boundedNat?_eq, Option.filter_eq_some_iff, Option.some.injEq, decide_eq_true_iff,
    hlimit]

/-! ## Addresses from their parts -/

theorem eq_mk {charm : Charm} {name : String} {revision : Option Nat} (hname : charm.name = name)
    (hrevision : charm.revision = revision) : charm = ⟨name, revision⟩ := by
  rw [← hname, ← hrevision]

theorem isSegment_of_parts {scheme name digits : String} (hscheme : ':' ∉ scheme.toList)
    (path : String) (hname : '/' ∉ name.toList) (hdigits : IsDigits digits.toList) :
    IsSegment (scheme ++ ":" ++ path ++ "/" ++ name ++ "-" ++ digits) (name ++ "-" ++ digits) := by
  have hslash : '/' ∉ digits.toList := fun hmem => absurd (hdigits.isDigit '/' hmem) (by decide)
  have hlast : '/' ∉ (name ++ "-" ++ digits).toList := by
    rw [toList_around '-' rfl]
    simp [hname, hslash]
  have hassoc : scheme ++ ":" ++ path ++ "/" ++ name ++ "-" ++ digits =
      scheme ++ ":" ++ (path ++ "/" ++ (name ++ "-" ++ digits)) := by
    simp only [String.append_assoc]
  rw [hassoc]
  exact ⟨_, .behind hscheme _, .behind path hlast⟩

/-- A name and a revision that fits are read back from behind any scheme and path. -/
theorem parse_of_parts {scheme name : String} {n : Nat} (hscheme : ':' ∉ scheme.toList)
    (path : String) (hne : name ≠ "") (hname : '/' ∉ name.toList) (hn : n < 2 ^ 64) :
    parse (scheme ++ ":" ++ path ++ "/" ++ name ++ "-" ++ .ofList (Text.decimal n)) =
      ⟨name, some n⟩ := by
  have htoList : (String.ofList (Text.decimal n)).toList = Text.decimal n := String.toList_ofList
  have hdigits : IsDigits (String.ofList (Text.decimal n)).toList := by
    rw [htoList]
    exact .decimal n
  have hsegment := isSegment_of_parts hscheme path hname hdigits
  obtain ⟨hnameOf, hrevisionOf⟩ := hsegment.of_isNumbered ⟨rfl, hne, hdigits⟩
  have hrevision := revision_parse_eq_some_iff.2
    ⟨_, hrevisionOf, by rw [htoList, Text.number_decimal], hn⟩
  exact eq_mk hnameOf hrevision

/-- Whatever an address is, its last segment is the name, a dash and the digits of the revision, or
else the name alone and not numbered; and a charm is read back from an address that it is put
into. -/
theorem parse_losesNothing (address : String) :
    (∃ last, (∀ other, IsSegment address other ↔ other = last) ∧
      (∀ digits, revisionOf address = some digits → IsNumbered last (nameOf address) digits) ∧
      (revisionOf address = none →
        nameOf address = last ∧ ∀ name digits, ¬ IsNumbered last name digits)) ∧
    (parse address).name = nameOf address ∧
    (∀ n, (parse address).revision = some n ↔ ∃ digits, revisionOf address = some digits ∧
      Text.number digits.toList = n ∧ n < 2 ^ 64) ∧
    ∀ scheme path name n, ':' ∉ scheme.toList → name ≠ "" → '/' ∉ name.toList → n < 2 ^ 64 →
      parse (scheme ++ ":" ++ path ++ "/" ++ name ++ "-" ++ .ofList (Text.decimal n)) =
        ⟨name, some n⟩ := by
  obtain ⟨last, hsegment⟩ := exists_isSegment address
  refine ⟨⟨last, fun _ => hsegment.iff_eq, fun _ => hsegment.revisionOf_eq_some_iff.1, ?_⟩, rfl,
    fun _ => revision_parse_eq_some_iff,
    fun _ path _ _ hscheme hne hname hn => parse_of_parts hscheme path hne hname hn⟩
  intro hnone
  have hnumbered : ∀ name digits, ¬ IsNumbered last name digits := fun name digits h => by
    cases hnone.symm.trans (hsegment.of_isNumbered h).2
  exact ⟨(hsegment.of_not_isNumbered hnumbered).1, hnumbered⟩

/-- The largest revision, behind a name that has colons and ends as a numbered one does. -/
theorem parse_losesNothing_dashes :
    let n := 2 ^ 64 - 1
    (':' ∉ "ch".toList ∧ "nova:k8s-30" ≠ "" ∧ '/' ∉ "nova:k8s-30".toList ∧ n < 2 ^ 64) ∧
      parse ("ch" ++ ":" ++ "local:amd64//" ++ "/" ++ "nova:k8s-30" ++ "-" ++
        .ofList (Text.decimal n)) = ⟨"nova:k8s-30", some n⟩ := by
  intro n
  have hscheme : ':' ∉ "ch".toList := by decide
  have hne : "nova:k8s-30" ≠ "" := by decide
  have hname : '/' ∉ "nova:k8s-30".toList := by decide
  have hn : n < 2 ^ 64 := by decide
  obtain ⟨-, -, -, hparts⟩ := parse_losesNothing "ch:nova:k8s-30"
  exact ⟨⟨hscheme, hne, hname, hn⟩, hparts "ch" "local:amd64//" _ n hscheme hne hname hn⟩

end Converge.Charm
