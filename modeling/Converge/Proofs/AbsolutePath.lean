import Converge.Proofs.PlainPath
/-!
# Absolute paths

The absolute path of a place names it from the root, one name behind the other.  Main statements:
the directories above it have the absolute paths of the places above (`ancestors_absolute`), and in
a tree whose entries stand in directories it is the path of an entry just if there is one at the
place and the path is not too long (`Rooted.isPresent_absolute`).
-/

namespace Converge.FileTree

variable {tree : FileTree} {place : Location} {name : String}

/-! ## Names -/

/-- What an entry of a tree can be called. -/
structure IsEntryName (name : String) : Prop extends Path.IsName name.toList where
  size_le : name.utf8ByteSize ≤ maxNameSize
  no_nul : '\x00' ∉ name.toList

theorem next_entryName (h : IsEntryName name) (start : Location) :
    next start name = start ++ [name] := by
  have hnext : next start (String.ofList name.toList) = start ++ [String.ofList name.toList] :=
    next_ofList h.toIsName
  rwa [String.ofList_toList] at hnext

/-! ## The path of a place -/

/-- Names with slashes between them. -/
def joined (place : Location) : List Char :=
  (place.flatMap fun name => '/' :: name.toList).tail

/-- The absolute path of a place. -/
def absolute (place : Location) : String :=
  String.ofList ('/' :: joined place)

theorem joined_append (hplace : place ≠ []) (name : String) :
    joined (place ++ [name]) = joined place ++ '/' :: name.toList := by
  cases place with
  | nil => exact absurd rfl hplace
  | cons first rest => simp [joined]

/-- The path of an entry is that of its directory and its name. -/
theorem exists_front_joined (place : Location) (name : String) : ∃ front, Path.IsFront front ∧
    joined (place ++ [name]) = front ++ name.toList ∧
    (front = [] ∧ place = [] ∨ front = joined place ++ ['/']) := by
  by_cases hplace : place = []
  · subst hplace
    exact ⟨[], .inl rfl, by simp [joined], .inl ⟨rfl, rfl⟩⟩
  · refine ⟨joined place ++ ['/'], .inr ⟨_, rfl⟩, ?_, .inr rfl⟩
    rw [joined_append hplace, List.append_assoc]
    rfl

theorem trimBody_joined (h : ∀ name ∈ place, IsEntryName name) :
    Path.trimBody (joined place) = joined place := by
  induction place using List.reverseRecOn with
  | nil =>
    rw [Path.trimBody]
    rfl
  | append_singleton place name _ =>
    have hname := h name (by simp)
    obtain ⟨front, hfront, heq, -⟩ := exists_front_joined place name
    have hne : front ++ name.toList ≠ [] := by simp [hname.ne_nil]
    have hlast := Path.splitBody_append hfront hname.whole
    rw [heq, Path.trimBody, dif_neg hne, if_neg]
    simp [hlast, hname.ne_nil, hname.ne_dot]

theorem isEmpty_absolute (place : Location) : (absolute place).isEmpty = false := by
  refine Bool.eq_false_iff.2 fun hempty => ?_
  have hlist := congrArg String.toList (String.isEmpty_iff.1 hempty)
  rw [absolute, String.toList_ofList] at hlist
  cases hlist

/-! ## The directories above -/

theorem parent?_absolute_root : Path.parent? (absolute []) = none := by
  rw [Path.parent?, absolute, String.toList_ofList]
  show Option.map String.ofList (Path.parentChars? ['/']) = none
  rw [Path.parentChars?]
  have htrim : Path.trimBody (Path.body ['/']) = [] := by
    show Path.trimBody [] = []
    rw [Path.trimBody]
    rfl
  simp [htrim, Path.lead]

theorem splitBody_joined (place : Location) (hname : IsEntryName name) :
    (Path.splitBody (joined (place ++ [name]))).1 = joined place := by
  by_cases hplace : place = []
  · subst hplace
    have hjoined : joined ([] ++ [name]) = name.toList := by simp [joined]
    rw [hjoined, Path.splitBody, Text.splitLast_eq_none_iff.2 hname.whole]
    rfl
  · rw [joined_append hplace, Path.splitBody, Text.splitLast_append _ hname.whole]
    rfl

/-- The directory of an entry is found from its path alone. -/
theorem parent?_absolute (h : ∀ other ∈ place, IsEntryName other) (hname : IsEntryName name) :
    Path.parent? (absolute (place ++ [name])) = some (absolute place) := by
  have hall : ∀ other ∈ place ++ [name], IsEntryName other := by
    intro other hother
    rcases List.mem_append.1 hother with hother | hother
    · exact h other hother
    · rwa [List.mem_singleton.1 hother]
  have hne : joined (place ++ [name]) ≠ [] := by
    obtain ⟨front, -, heq, -⟩ := exists_front_joined place name
    simp [heq, hname.ne_nil]
  rw [Path.parent?, absolute, String.toList_ofList, Path.parentChars?]
  show Option.map String.ofList (if Path.trimBody (joined (place ++ [name])) ≠ [] then
    some ('/' :: Path.trimBody (Path.splitBody (Path.trimBody (joined (place ++ [name])))).1)
    else _) = _
  rw [trimBody_joined hall, if_pos hne, splitBody_joined place hname, trimBody_joined h]
  rfl

theorem ancestors_absolute_root : Path.ancestors (absolute []) = [absolute []] :=
  Path.ancestors_of_none parent?_absolute_root

/-- Above an entry stand its directory and what stands above that. -/
theorem ancestors_absolute (h : ∀ other ∈ place, IsEntryName other) (hname : IsEntryName name) :
    Path.ancestors (absolute (place ++ [name])) =
      absolute (place ++ [name]) :: Path.ancestors (absolute place) :=
  Path.ancestors_of_some (parent?_absolute h hname)

/-- The last character of a path below the root belongs to a name. -/
theorem getLast?_absolute_ne (place : Location) (hname : IsEntryName name) :
    (absolute (place ++ [name])).toList.getLast? ≠ some '/' := by
  obtain ⟨front, -, heq, -⟩ := exists_front_joined place name
  intro hlast
  rw [absolute, String.toList_ofList, heq, ← List.cons_append,
    List.getLast?_append_of_ne_nil _ hname.ne_nil] at hlast
  exact hname.whole (List.mem_of_getLast? hlast)

/-- A name that is joined to the path of a directory names an entry of the directory. -/
theorem join_absolute (h : ∀ other ∈ place, IsEntryName other) (hname : IsEntryName name) :
    Path.join (absolute place) name = absolute (place ++ [name]) := by
  have hrelative : Path.isAbsolute name = false :=
    decide_eq_false fun hhead => hname.whole (List.mem_of_mem_head? hhead)
  rw [Path.join, hrelative, isEmpty_absolute, Bool.or_self, if_neg Bool.false_ne_true]
  refine String.toList_injective ?_
  induction place using List.reverseRecOn with
  | nil =>
    rw [if_pos (by rfl)]
    simp [absolute, joined]
  | append_singleton place last _ =>
    rw [if_neg (getLast?_absolute_ne place (h last (by simp)))]
    have happend := joined_append (show place ++ [last] ≠ [] by simp) name
    rw [absolute, absolute, happend]
    simp

/-! ## Where an absolute path leads -/

theorem eq_of_walk_entryNames (h : ∀ other ∈ place, IsEntryName other) {start found : Location}
    (hwalk : tree.walk start place = .ok found) : found = start ++ place := by
  induction place generalizing start with
  | nil => simpa using (Except.ok.inj hwalk).symm
  | cons name rest ih =>
    obtain ⟨hname, hrest⟩ := List.forall_mem_cons.1 h
    obtain ⟨-, -, hwalk⟩ := walk_cons_eq_ok_iff.1 hwalk
    rw [next_entryName hname] at hwalk
    rw [ih hrest hwalk, List.append_assoc, List.singleton_append]

theorem Rooted.walk_entryNames (hrooted : tree.Rooted) (h : ∀ other ∈ place, IsEntryName other)
    {start : Location} (hstored : (tree.stored? (start ++ place)).isSome) :
    tree.walk start place = .ok (start ++ place) := by
  induction place generalizing start with
  | nil =>
    rw [List.append_nil]
    rfl
  | cons name rest ih =>
    obtain ⟨hname, hrest⟩ := List.forall_mem_cons.1 h
    have hstart := hrooted.directory (List.cons_ne_nil name rest) hstored
    rw [← List.singleton_append, ← List.append_assoc] at hstored
    refine walk_cons_eq_ok_iff.2 ⟨hstart, hname.size_le, ?_⟩
    rw [next_entryName hname, ih hrest hstored, List.append_assoc, List.singleton_append]

theorem splitAll_joined (h : ∀ other ∈ place, IsEntryName other) (hplace : place ≠ []) :
    Text.splitAll '/' (joined place) = place.map String.toList := by
  induction place using List.reverseRecOn with
  | nil => exact absurd rfl hplace
  | append_singleton place name ih =>
    have hname := h name (by simp)
    have hrest : ∀ other ∈ place, IsEntryName other := fun other hother =>
      h other (List.mem_append_left _ hother)
    by_cases hnil : place = []
    · subst hnil
      have hjoined : joined ([] ++ [name]) = name.toList := by simp [joined]
      rw [hjoined, Text.splitAll_of_not_mem hname.whole]
      rfl
    · rw [joined_append hnil, Text.splitAll_append, ih hrest hnil,
        Text.splitAll_of_not_mem hname.whole, List.map_append]
      rfl

theorem names_absolute (h : ∀ other ∈ place, IsEntryName other) (hplace : place ≠ []) :
    names (absolute place) = "" :: place := by
  have hsplit : Text.splitAll '/' ('/' :: joined place) = [] :: place.map String.toList := by
    rw [Text.splitAll, if_pos rfl, splitAll_joined h hplace]
  rw [names, absolute, String.toList_ofList, hsplit, List.map_cons, List.map_map]
  simp

theorem not_mem_joined (h : ∀ other ∈ place, IsEntryName other) : '\x00' ∉ joined place := by
  induction place using List.reverseRecOn with
  | nil => exact List.not_mem_nil
  | append_singleton place name ih =>
    have hname := h name (by simp)
    have hrest := ih fun other hother => h other (List.mem_append_left _ hother)
    obtain ⟨front, -, heq, ⟨hfront, -⟩ | hfront⟩ := exists_front_joined place name
    · rw [heq, hfront, List.nil_append]
      exact hname.no_nul
    · rw [heq, hfront]
      simp [hrest, hname.no_nul]

theorem startOf_absolute (tree : FileTree) (place : Location) :
    tree.startOf (absolute place) = [] := by
  rw [startOf, absolute, String.toList_ofList]
  rfl

theorem eq_of_locate_absolute (h : ∀ other ∈ place, IsEntryName other) {found : Location}
    (hlocate : tree.locate (absolute place) = .ok found) : found = place := by
  by_cases hplace : place = []
  · subst hplace
    exact (Except.ok.inj hlocate).symm
  · obtain ⟨-, hwalk⟩ := locate_eq_ok_iff.1 hlocate
    rw [names_absolute h hplace, startOf_absolute] at hwalk
    exact eq_of_walk_entryNames h (walk_cons_eq_ok_iff.1 hwalk).2.2

/-- The absolute path of an entry leads to it, unless it is too long. -/
theorem Rooted.locate_absolute (hrooted : tree.Rooted) (h : ∀ other ∈ place, IsEntryName other)
    (hstored : (tree.stored? place).isSome) (hsize : (absolute place).utf8ByteSize ≤ maxPathSize) :
    tree.locate (absolute place) = .ok place := by
  by_cases hplace : place = []
  · subst hplace
    rfl
  · have hnul : '\x00' ∉ (absolute place).toList := by
      rw [absolute, String.toList_ofList]
      simp [not_mem_joined h]
    refine locate_eq_ok_iff.2 ⟨⟨by simp [isEmpty_absolute], Nat.not_lt.2 hsize, hnul⟩, ?_⟩
    have hwalk : tree.walk [] place = .ok place := hrooted.walk_entryNames h hstored
    rw [names_absolute h hplace, startOf_absolute]
    exact walk_cons_eq_ok_iff.2 ⟨rfl, by decide, hwalk⟩

theorem Rooted.isPresent_absolute (hrooted : tree.Rooted)
    (h : ∀ other ∈ place, IsEntryName other) : tree.isPresent (absolute place) ↔
      (tree.stored? place).isSome ∧ (absolute place).utf8ByteSize ≤ maxPathSize := by
  constructor
  · intro hpresent
    unfold isPresent at hpresent
    split at hpresent
    · next found hlocate =>
      have hsize := (locate_eq_ok_iff.1 hlocate).1.2.1
      obtain rfl := eq_of_locate_absolute h hlocate
      exact ⟨hpresent, Nat.not_lt.1 hsize⟩
    · cases hpresent
  · rintro ⟨hstored, hsize⟩
    rw [isPresent, hrooted.locate_absolute h hstored hsize]
    exact hstored

end Converge.FileTree
