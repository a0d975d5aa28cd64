import Converge.Proofs.AbsolutePath
/-!
# Paths of files that stand beside each other

What a path leads to depends on the components that say something alone, and those of its parent are
all but the last.  Main statement: a name that is joined to the parent of a file's path leads to the
entry with that name in the directory of the file (`Rooted.locate_join_parent?`).
-/

namespace Converge

/-! ## Parents -/

namespace Path

variable {front name : List Char}

theorem splitBody_cases (body : List Char) :
    body = (splitBody body).1 ++ '/' :: (splitBody body).2 ∧ '/' ∉ (splitBody body).2 ∨
      (splitBody body).1 = [] ∧ (splitBody body).2 = body ∧ '/' ∉ body := by
  unfold splitBody
  cases hcut : Text.splitLast '/' body with
  | none => exact .inr ⟨rfl, rfl, Text.splitLast_eq_none_iff.1 hcut⟩
  | some cut => exact .inl ⟨Text.eq_append_of_splitLast hcut, Text.not_mem_of_splitLast hcut⟩

theorem isPrefix_trimBody (body : List Char) : trimBody body <+: body := by
  induction body using trimBody.induct with
  | case1 => rw [trimBody, dif_pos rfl]
  | case2 body h cut hlt hempty ih =>
    rw [trimBody, dif_neg h, if_pos hempty]
    refine ih.trans ?_
    rcases splitBody_cases body with ⟨hbody, -⟩ | ⟨hnil, -, -⟩
    · exact ⟨'/' :: cut.2, hbody.symm⟩
    · rw [hnil]
      exact List.nil_prefix
  | case3 body h cut hlt hempty =>
    rw [trimBody, dif_neg h, if_neg hempty]

theorem lead_eq_cases (path : List Char) : lead path = [] ∧ path.head? ≠ some '/' ∨
    lead path = ['/'] ∨
    lead path = ['.'] ∧ (path = ['.'] ∨ ∃ tail, path = '.' :: '/' :: tail) := by
  rw [lead.eq_def]
  split
  · exact .inr (.inl rfl)
  · exact .inr (.inr ⟨rfl, .inl rfl⟩)
  · exact .inr (.inr ⟨rfl, .inr ⟨_, rfl⟩⟩)
  · next hroot _ _ =>
    refine .inl ⟨rfl, fun hhead => ?_⟩
    obtain ⟨tail, htail⟩ : ∃ tail, path = '/' :: tail := List.head?_eq_some_iff.1 hhead
    exact hroot tail htail

/-- A dot in front of a path that ends in a name is followed by a slash. -/
theorem head?_of_lead_eq_dot (hname : IsName name) {rest : List Char}
    (heq : front = lead (front ++ name) ++ rest) (hlead : lead (front ++ name) = ['.']) :
    rest.head? = some '/' := by
  have hpath : front ++ name = '.' :: (rest ++ name) := by
    rw [hlead] at heq
    rw [heq]
    rfl
  rcases lead_eq_cases (front ++ name) with ⟨hnil, -⟩ | hroot | ⟨-, hdot | ⟨tail, htail⟩⟩
  · cases hnil.symm.trans hlead
  · cases hroot.symm.trans hlead
  · have hnil := (List.cons.inj (hpath.symm.trans hdot)).2
    exact absurd (List.append_eq_nil_iff.1 hnil).2 hname.ne_nil
  · have hrest := (List.cons.inj (hpath.symm.trans htail)).2
    cases rest with
    | nil =>
      rw [List.nil_append] at hrest
      exact absurd (hrest ▸ List.mem_cons_self) hname.whole
    | cons c rest => rw [(List.cons.inj hrest).1, List.head?_cons]

/-- The parent of a path that ends in a name is what stands in front of the name, trimmed. -/
theorem exists_parentChars? (hfront : IsFront front) (hname : IsName name) :
    ∃ directory rest, front = lead (front ++ name) ++ rest ∧
      (rest = [] ∧ directory = [] ∨ rest = directory ++ ['/']) ∧
      parentChars? (front ++ name) = some (lead (front ++ name) ++ trimBody directory) := by
  obtain ⟨rest, hrest, heq⟩ := exists_front hfront hname
  have hsplit : front ++ name = lead (front ++ name) ++ (rest ++ name) := by
    rw [← List.append_assoc, ← heq]
  have htrim : trimBody (body (front ++ name)) = rest ++ name :=
    List.append_cancel_left ((fileName?_append hfront hname).1.trans hsplit)
  have hparent : parentChars? (front ++ name) =
      some (lead (front ++ name) ++ trimBody (splitBody (rest ++ name)).1) := by
    rw [parentChars?, htrim, if_pos (by simp [hname.ne_nil])]
  rcases hrest with rfl | ⟨directory, rfl⟩
  · refine ⟨[], [], heq, .inl ⟨rfl, rfl⟩, hparent.trans ?_⟩
    rw [List.nil_append, splitBody, Text.splitLast_eq_none_iff.2 hname.whole]
    rfl
  · refine ⟨directory, _, heq, .inr rfl, hparent.trans ?_⟩
    rw [List.append_assoc, List.singleton_append, splitBody,
      Text.splitLast_append directory hname.whole]
    rfl

end Path

/-! ## Components -/

namespace FileTree

variable {tree : FileTree} {start place : Location} {front name : List Char}

/-- Whether a component leads anywhere. -/
def speaks (component : List Char) : Bool :=
  component ≠ [] && component ≠ ['.']

/-- The components of a path that lead anywhere. -/
def speaking (path : List Char) : List (List Char) :=
  (Text.splitAll '/' path).filter speaks

theorem speaking_append (a b : List Char) :
    speaking (a ++ '/' :: b) = speaking a ++ speaking b := by
  unfold speaking
  rw [Text.splitAll_append, List.filter_append]

theorem speaking_eq_nil (hname : '/' ∉ name) (h : speaks name = false) : speaking name = [] := by
  unfold speaking
  rw [Text.splitAll_of_not_mem hname, List.filter_cons_of_neg (by rw [h]; decide), List.filter_nil]

theorem speaking_nil : speaking [] = [] :=
  rfl

/-- Trimming drops no component that leads anywhere. -/
theorem speaking_trimBody (body : List Char) :
    speaking (Path.trimBody body) = speaking body := by
  induction body using Path.trimBody.induct with
  | case1 => rw [Path.trimBody, dif_pos rfl]
  | case2 body h cut hlt hempty ih =>
    rw [Path.trimBody, dif_neg h, if_pos hempty, ih]
    have hsilent : speaks cut.2 = false := by
      obtain hempty | hempty : cut.2 = [] ∨ cut.2 = ['.'] := by simpa using hempty
      · rw [hempty]
        rfl
      · rw [hempty]
        rfl
    rcases Path.splitBody_cases body with ⟨hbody, hwhole⟩ | ⟨hnil, hsame, hwhole⟩
    · have hcut : speaking body = speaking cut.1 ++ speaking cut.2 :=
        (congrArg speaking hbody).trans (speaking_append _ _)
      rw [hcut, speaking_eq_nil hwhole hsilent, List.append_nil]
    · have hlast : speaks body = false := by rwa [← hsame]
      rw [speaking_eq_nil hwhole hlast]
      exact (congrArg speaking hnil).trans speaking_nil
  | case3 body h cut hlt hempty => rw [Path.trimBody, dif_neg h, if_neg hempty]

theorem directory_of_walk {names : List String} (hne : names ≠ [])
    (h : tree.walk start names = .ok place) : tree.stored? start = some .directory := by
  cases names with
  | nil => exact absurd rfl hne
  | cons name rest => exact (walk_cons_eq_ok_iff.1 h).1

theorem next_of_silent {component : List Char} (h : speaks component = false) :
    next start (String.ofList component) = start ∧
      (String.ofList component).utf8ByteSize ≤ maxNameSize := by
  have hcases : component = [] ∨ component = ['.'] := by
    by_cases hnil : component = []
    · exact .inl hnil
    · refine .inr (by_contra fun hdot => ?_)
      simp [speaks, hnil, hdot] at h
  rcases hcases with rfl | rfl
  · exact ⟨rfl, by decide⟩
  · exact ⟨rfl, by decide⟩

/-- What leads nowhere may be left out in front of a name. -/
theorem walk_speaking {components : List (List Char)} {last : String} :
    tree.walk start (components.map String.ofList ++ [last]) = .ok place ↔
      tree.walk start ((components.filter speaks).map String.ofList ++ [last]) = .ok place := by
  induction components generalizing start with
  | nil => exact Iff.rfl
  | cons component rest ih =>
    rw [List.map_cons, List.cons_append, walk_cons_eq_ok_iff, ih]
    by_cases h : speaks component
    · rw [List.filter_cons_of_pos h, List.map_cons, List.cons_append, walk_cons_eq_ok_iff]
    · obtain ⟨hnext, hsize⟩ := next_of_silent (Bool.eq_false_iff.2 h)
      rw [List.filter_cons_of_neg h, hnext]
      exact ⟨fun hwalk => hwalk.2.2,
        fun hwalk => ⟨directory_of_walk (by simp) hwalk, hsize, hwalk⟩⟩

/-- What a path with a name at its end leads to, by the components in front of the name. -/
theorem walk_names_append (hfront : Path.IsFront front) (hname : '/' ∉ name) :
    tree.walk start (names (String.ofList (front ++ name))) = .ok place ↔
      tree.walk start ((speaking front).map String.ofList ++ [String.ofList name]) = .ok place := by
  rcases hfront with rfl | ⟨directory, rfl⟩
  · rw [names, String.toList_ofList, List.nil_append, Text.splitAll_of_not_mem hname, speaking_nil]
    exact Iff.rfl
  · have hfront : speaking (directory ++ ['/']) = speaking directory := by
      rw [speaking_append, speaking_nil, List.append_nil]
    rw [names, String.toList_ofList, List.append_assoc, List.singleton_append, Text.splitAll_append,
      Text.splitAll_of_not_mem hname, List.map_append, List.map_singleton, hfront]
    exact walk_speaking

/-! ## Joining a name -/

/-- What stands in front of a name that is joined to a path. -/
theorem exists_front_join (parent : String) {last : String} (hlast : Path.isAbsolute last = false) :
    ∃ front, Path.IsFront front ∧ (Path.join parent last).toList = front ++ last.toList ∧
      speaking front = speaking parent.toList ∧
      (∀ c ∈ front, c ∈ parent.toList ∨ c = '/') ∧ front.head? = parent.toList.head? := by
  unfold Path.join
  rw [hlast, Bool.false_or]
  by_cases hempty : parent.isEmpty
  · have hnil : parent.toList = [] := by
      rw [String.isEmpty_iff.1 hempty]
      rfl
    rw [if_pos hempty, hnil]
    exact ⟨[], .inl rfl, rfl, rfl, nofun, rfl⟩
  · rw [if_neg hempty]
    split
    · next hslash =>
      obtain ⟨before, hbefore⟩ : ∃ before, parent.toList = before ++ ['/'] :=
        List.getLast?_eq_some_iff.1 hslash
      exact ⟨parent.toList, .inr ⟨before, hbefore⟩, String.toList_append, rfl,
        fun c hc => .inl hc, rfl⟩
    · refine ⟨parent.toList ++ ['/'], .inr ⟨_, rfl⟩, ?_, ?_, fun c hc => ?_, ?_⟩
      · rw [String.toList_append, String.toList_append]
        rfl
      · rw [speaking_append, speaking_nil, List.append_nil]
      · rcases List.mem_append.1 hc with hc | hc
        · exact .inl hc
        · exact .inr (List.mem_singleton.1 hc)
      · have hne : parent.toList ≠ [] := fun hnil => by
          have hparent : parent = "" := String.toList_inj.1 hnil
          rw [hparent] at hempty
          exact hempty rfl
        rw [List.head?_append_of_ne_nil _ hne]

/-! ## What stands beside a file -/

/-- A lead says nothing. -/
theorem speaking_append_of_isLead {start rest : List Char} (h : start = [] ∨ start = ['/'] ∨
    start = ['.'] ∧ (rest = [] ∨ rest.head? = some '/')) :
    speaking (start ++ rest) = speaking rest := by
  rcases h with rfl | rfl | ⟨rfl, rfl | hrest⟩
  · rfl
  · exact speaking_append [] rest
  · rfl
  · obtain ⟨tail, rfl⟩ : ∃ tail, rest = '/' :: tail := List.head?_eq_some_iff.1 hrest
    exact (speaking_append ['.'] tail).trans (speaking_append [] tail).symm

/-- The parent of a path that ends in a name says what stands in front of the name. -/
theorem exists_parent (hfront : Path.IsFront front) (hname : Path.IsName name) :
    ∃ parent, Path.parentChars? (front ++ name) = some parent ∧ parent <+: front ++ name ∧
      speaking parent = speaking front ∧
      (parent = [] → (front ++ name).head? ≠ some '/') := by
  obtain ⟨directory, rest, heq, hrest, hparent⟩ := Path.exists_parentChars? hfront hname
  have htrim : Path.trimBody directory <+: rest := by
    refine (Path.isPrefix_trimBody directory).trans ?_
    rcases hrest with ⟨rfl, rfl⟩ | rfl
    · exact List.prefix_rfl
    · exact List.prefix_append directory ['/']
  have hspeaking : speaking directory = speaking rest := by
    rcases hrest with ⟨rfl, rfl⟩ | rfl
    · rfl
    · rw [speaking_append, speaking_nil, List.append_nil]
  have hlead : speaking (Path.lead (front ++ name) ++ Path.trimBody directory) =
      speaking (Path.trimBody directory) ∧
        speaking (Path.lead (front ++ name) ++ rest) = speaking rest := by
    rcases Path.lead_eq_cases (front ++ name) with ⟨hnil, -⟩ | hroot | ⟨hdot, -⟩
    · exact ⟨speaking_append_of_isLead (.inl hnil), speaking_append_of_isLead (.inl hnil)⟩
    · exact ⟨speaking_append_of_isLead (.inr (.inl hroot)),
        speaking_append_of_isLead (.inr (.inl hroot))⟩
    · have hhead : rest.head? = some '/' := Path.head?_of_lead_eq_dot hname heq hdot
      have htrimmed : Path.trimBody directory = [] ∨
          (Path.trimBody directory).head? = some '/' := by
        by_cases hempty : Path.trimBody directory = []
        · exact .inl hempty
        · obtain ⟨tail, htail⟩ := htrim
          rw [← htail, List.head?_append_of_ne_nil _ hempty] at hhead
          exact .inr hhead
      exact ⟨speaking_append_of_isLead (.inr (.inr ⟨hdot, htrimmed⟩)),
        speaking_append_of_isLead (.inr (.inr ⟨hdot, .inr hhead⟩))⟩
  refine ⟨_, hparent, ?_, ?_, fun hempty hhead => ?_⟩
  · have hfront : Path.lead (front ++ name) ++ Path.trimBody directory <+: front := by
      nth_rewrite 2 [heq]
      exact (List.prefix_append_right_inj _).2 htrim
    exact hfront.trans (List.prefix_append front name)
  · rw [hlead.1, speaking_trimBody, hspeaking, ← hlead.2, ← heq]
  · rcases Path.lead_eq_cases (front ++ name) with ⟨-, hrelative⟩ | hroot | ⟨hdot, -⟩
    · exact hrelative hhead
    · rw [hroot] at hempty
      cases hempty
    · rw [hdot] at hempty
      cases hempty

/-- A path with the head of the parent of another one starts where that does. -/
theorem startOf_eq {front parent path sibling : List Char} (hhead : front.head? = parent.head?)
    (hparent : parent <+: path) (hpath : parent = [] → path.head? ≠ some '/')
    (hsibling : '/' ∉ sibling) :
    tree.startOf (String.ofList (front ++ sibling)) = tree.startOf (String.ofList path) := by
  rw [startOf, startOf, String.toList_ofList, String.toList_ofList]
  by_cases hempty : parent = []
  · have hfront : front = [] := List.head?_eq_none_iff.1 (hhead.trans (hempty ▸ rfl))
    have hrelative : sibling.head? ≠ some '/' := fun h => hsibling (List.mem_of_mem_head? h)
    rw [hfront, List.nil_append, if_neg hrelative, if_neg (hpath hempty)]
  · obtain ⟨tail, rfl⟩ := hparent
    have hfront : front ≠ [] := by
      rintro rfl
      exact hempty (List.head?_eq_none_iff.1 hhead.symm)
    rw [List.head?_append_of_ne_nil _ hempty, List.head?_append_of_ne_nil _ hfront, hhead]

theorem Rooted.directory_dropLast (hrooted : tree.Rooted)
    (h : tree.stored? start = some .directory) : tree.stored? start.dropLast = some .directory := by
  induction start using List.reverseRecOn with
  | nil => rfl
  | append_singleton start name _ =>
    rw [List.dropLast_concat]
    exact hrooted start name (by rw [h, Option.isSome_some])

/-- A path that leads to a file ends in a name. -/
theorem Rooted.exists_name_of_file (hrooted : tree.Rooted) {path : String} {content : Content}
    (hlocate : tree.locate path = .ok place) (hstored : tree.stored? place = some (.file content)) :
    ∃ front name, path.toList = front ++ name ∧ Path.IsFront front ∧ Path.IsName name := by
  obtain ⟨front, name, hpath, hfront, hwhole⟩ : ∃ front name, path.toList = front ++ name ∧
      Path.IsFront front ∧ '/' ∉ name := by
    rcases Path.splitBody_cases path.toList with ⟨hpath, hwhole⟩ | ⟨-, -, hwhole⟩
    · exact ⟨_, _, hpath.trans (List.append_cons _ _ _), .inr ⟨_, rfl⟩, hwhole⟩
    · exact ⟨[], _, rfl, .inl rfl, hwhole⟩
  obtain rfl : path = String.ofList (front ++ name) := String.toList_inj.1 (by simpa using hpath)
  obtain ⟨before, hbefore⟩ := names_append hfront
  obtain ⟨-, hwalk⟩ := locate_eq_ok_iff.1 hlocate
  rw [hbefore name hwhole, walk_append_eq_ok_iff] at hwalk
  obtain ⟨directory, -, hlast⟩ := hwalk
  obtain ⟨hdirectory, -, hend⟩ := walk_cons_eq_ok_iff.1 hlast
  obtain rfl : next directory (String.ofList name) = place := Except.ok.inj hend
  -- anything but a name leads to the directory itself or to the one above it
  have hfile {other : Location} (h : tree.stored? other = some .directory) :
      next directory (String.ofList name) ≠ other := by
    rintro rfl
    cases h.symm.trans hstored
  refine ⟨front, name, hpath, hfront, hwhole, ?_, ?_, ?_⟩
  · rintro rfl
    exact hfile hdirectory rfl
  · rintro rfl
    exact hfile hdirectory rfl
  · rintro rfl
    exact hfile (hrooted.directory_dropLast hdirectory) rfl

/-- A name that is joined to the parent of a file's path leads to what stands beside the file. -/
theorem Rooted.locate_join_parent? (hrooted : tree.Rooted) {path sibling : String}
    {content : Content} (hlocate : tree.locate path = .ok place)
    (hstored : tree.stored? place = some (.file content)) (hsibling : IsEntryName sibling)
    (hsize : (Path.join ((Path.parent? path).getD ".") sibling).utf8ByteSize ≤ maxPathSize) :
    tree.locate (Path.join ((Path.parent? path).getD ".") sibling) =
      .ok (place.dropLast ++ [sibling]) := by
  obtain ⟨before, name, hpath, hbefore, hname⟩ : ∃ before name, path.toList = before ++ name ∧
    Path.IsFront before ∧ Path.IsName name := hrooted.exists_name_of_file hlocate hstored
  obtain rfl : path = String.ofList (before ++ name) := String.toList_inj.1 (by simpa using hpath)
  obtain ⟨parent, hparent, hinitial, hspeaking, hrelative⟩ := exists_parent hbefore hname
  have hparent? : (Path.parent? (String.ofList (before ++ name))).getD "." =
      String.ofList parent := by
    rw [Path.parent?, hpath, hparent]
    rfl
  have habsolute : Path.isAbsolute sibling = false :=
    decide_eq_false fun hhead => hsibling.whole (List.mem_of_mem_head? hhead)
  obtain ⟨front, hfront, hjoin, hsame, hmem, hhead⟩ :=
    exists_front_join (String.ofList parent) habsolute
  rw [String.toList_ofList] at hsame hmem hhead
  rw [hparent?] at hsize ⊢
  obtain ⟨⟨-, -, hnul⟩, hwalk⟩ := locate_eq_ok_iff.1 hlocate
  rw [walk_names_append hbefore hname.whole, ← hspeaking, ← hsame] at hwalk
  obtain ⟨directory, hdirectory, rfl⟩ := eq_of_walk_name hname hwalk
  have hstart : tree.startOf (Path.join (String.ofList parent) sibling) =
      tree.startOf (String.ofList (before ++ name)) := by
    rw [← String.ofList_toList (s := Path.join _ _), hjoin]
    exact startOf_eq hhead hinitial hrelative hsibling.whole
  obtain ⟨middle, hmiddle, hlast⟩ := walk_append_eq_ok_iff.1 hwalk
  obtain rfl : middle = directory := Except.ok.inj (hmiddle.symm.trans hdirectory)
  have hbeside : tree.walk middle [sibling] = .ok (middle ++ [sibling]) := by
    refine walk_cons_eq_ok_iff.2 ⟨(walk_cons_eq_ok_iff.1 hlast).1, hsibling.size_le, ?_⟩
    rw [next_entryName hsibling]
    rfl
  refine locate_eq_ok_iff.2 ⟨⟨fun hempty => ?_, Nat.not_lt.2 hsize, fun hmember => ?_⟩, ?_⟩
  · rw [String.isEmpty_iff.1 hempty] at hjoin
    exact hsibling.ne_nil (List.append_eq_nil_iff.1 hjoin.symm).2
  · rw [hjoin] at hmember
    rcases List.mem_append.1 hmember with hmember | hmember
    · rcases hmem _ hmember with hmember | hslash
      · rw [hpath] at hnul
        exact hnul (hinitial.subset hmember)
      · cases hslash
    · exact hsibling.no_nul hmember
  · rw [hstart, ← String.ofList_toList (s := Path.join _ _), hjoin,
      walk_names_append hfront hsibling.whole, String.ofList_toList, List.dropLast_concat]
    exact walk_append_eq_ok_iff.2 ⟨middle, hdirectory, hbeside⟩

end FileTree

end Converge
