import Converge.Proofs.FaultyDisk
import Mathlib.Data.List.Induction
/-!
# Plain paths

A path is plain that ends in the name of a file, whose extension is not that of a temporary file,
and that never leads up.  Main statement: in a tree whose entries stand in directories a store with
a plain path is guarded (`Plain.guarded`).
-/

namespace Converge

/-! ## Names at the end of a path -/

namespace Path

variable {front name : List Char}

/-- What a file can be called in a path. -/
structure IsName (name : List Char) : Prop where
  whole : '/' ∉ name
  ne_nil : name ≠ []
  ne_dot : name ≠ ['.']
  ne_up : name ≠ ['.', '.']

/-- What can stand in front of a name. -/
def IsFront (front : List Char) : Prop :=
  front = [] ∨ ∃ directory, front = directory ++ ['/']

theorem splitBody_append (hfront : IsFront front) (hname : '/' ∉ name) :
    (splitBody (front ++ name)).2 = name := by
  rw [splitBody]
  rcases hfront with rfl | ⟨directory, rfl⟩
  · rw [List.nil_append, Text.splitLast_eq_none_iff.2 hname, Option.getD_none]
  · rw [List.append_assoc, List.singleton_append, Text.splitLast_append directory hname,
      Option.getD_some]

/-- A lead is one character, and no name starts with it. -/
theorem lead_cases (path : List Char) : lead path = [] ∨
    ∃ c rest, path = c :: rest ∧ lead path = [c] ∧ ('/' ∈ path ∨ path = ['.']) := by
  rw [lead.eq_def]
  split
  · exact .inr ⟨_, _, rfl, rfl, .inl List.mem_cons_self⟩
  · exact .inr ⟨_, _, rfl, rfl, .inr rfl⟩
  · exact .inr ⟨_, _, rfl, rfl, .inl (List.mem_cons_of_mem _ List.mem_cons_self)⟩
  · exact .inl rfl

/-- The lead of a path that ends in a name belongs to what stands in front of the name. -/
theorem exists_front (hfront : IsFront front) (hname : IsName name) :
    ∃ rest, IsFront rest ∧ front = lead (front ++ name) ++ rest := by
  rcases hfront with rfl | ⟨directory, rfl⟩
  · refine ⟨[], .inl rfl, ?_⟩
    rw [List.nil_append, List.append_nil]
    obtain hlead | ⟨c, rest, -, -, hslash | hdot⟩ := lead_cases name
    · exact hlead.symm
    · exact absurd hslash hname.whole
    · exact absurd hdot hname.ne_dot
  · obtain hlead | ⟨c, rest, hpath, hlead, -⟩ := lead_cases (directory ++ ['/'] ++ name)
    · exact ⟨_, .inr ⟨directory, rfl⟩, by rw [hlead, List.nil_append]⟩
    · rw [hlead]
      cases directory with
      | nil =>
        obtain ⟨rfl, -⟩ := List.cons.inj hpath
        exact ⟨[], .inl rfl, rfl⟩
      | cons first directory =>
        obtain ⟨rfl, -⟩ := List.cons.inj hpath
        exact ⟨_, .inr ⟨directory, rfl⟩, rfl⟩

/-- A name at the end of a path is its file name, and there is nothing to trim behind it. -/
theorem fileName?_append (hfront : IsFront front) (hname : IsName name) :
    lead (front ++ name) ++ trimBody (body (front ++ name)) = front ++ name ∧
      fileName? (front ++ name) = some name := by
  obtain ⟨rest, hrest, heq⟩ := exists_front hfront hname
  have hbody : body (front ++ name) = rest ++ name := by
    rw [body]
    generalize lead (front ++ name) = start at heq ⊢
    rw [heq, List.append_assoc, List.drop_left]
  have hne : rest ++ name ≠ [] := by
    simp [hname.ne_nil]
  have hlast := splitBody_append hrest hname.whole
  have htrim : trimBody (rest ++ name) = rest ++ name := by
    rw [trimBody, dif_neg hne, if_neg]
    simp [hlast, hname.ne_nil, hname.ne_dot]
  rw [fileName?, hbody, htrim]
  refine ⟨by rw [← List.append_assoc, ← heq], ?_⟩
  split
  · next hnil => exact absurd hnil hne
  · rw [hlast, if_neg hname.ne_up]

/-! ## The temporary path -/

/-- A name that keeps its stem when another extension is put behind it. -/
structure IsFileName (name : List Char) : Prop extends IsName name where
  stem : (splitName name).1 ≠ ['.']

theorem splitName_cases (name : List Char) : splitName name = (name, none) ∨
    ∃ stem extension, stem ≠ [] ∧ '.' ∉ extension ∧ name = stem ++ '.' :: extension ∧
      splitName name = (stem, some extension) := by
  rw [splitName]
  split
  · exact .inl rfl
  · exact .inl rfl
  · next stem extension hne hcut =>
    refine .inr ⟨stem, extension, ?_, Text.not_mem_of_splitLast hcut,
      Text.eq_append_of_splitLast hcut, rfl⟩
    rintro rfl
    exact hne rfl

theorem splitName_append {stem extension : List Char} (h : stem ≠ [])
    (hextension : '.' ∉ extension) :
    splitName (stem ++ '.' :: extension) = (stem, some extension) := by
  rw [splitName, Text.splitLast_append stem hextension]
  cases stem with
  | nil => exact absurd rfl h
  | cons c rest => rfl

/-- Another extension is put behind the stem of the name at the end of a path. -/
theorem setExtension_append (hfront : IsFront front) (hname : IsName name) (extension : List Char) :
    setExtension (front ++ name) extension =
      front ++ ((splitName name).1 ++ '.' :: extension) := by
  obtain ⟨htrim, hfile⟩ := fileName?_append hfront hname
  rw [setExtension, hfile]
  simp only [htrim, List.length_append, Nat.add_sub_cancel, List.take_left', List.append_assoc]

theorem withExtension_append (hfront : IsFront front) (hname : IsFileName name)
    (extension : String) : withExtension (String.ofList (front ++ name)) extension =
      String.ofList (front ++ ((splitName name).1 ++ '.' :: extension.toList)) := by
  obtain ⟨-, hfile⟩ := fileName?_append hfront hname.toIsName
  have hextension : extension? (front ++ name) = (splitName name).2 := by
    rw [extension?, hfile, Option.bind_some]
  rw [withExtension, String.toList_ofList, hextension]
  obtain hsplit | ⟨stem, old, hstem, hold, rfl, hsplit⟩ := splitName_cases name
  · rw [hsplit, Option.getD_none, List.length_nil, Nat.sub_zero, List.take_length,
      setExtension_append hfront hname.toIsName, hsplit]
  · -- the old extension is cut off, and the dot in front of it is left
    have hcut : (front ++ (stem ++ '.' :: old)).take
        ((front ++ (stem ++ '.' :: old)).length - old.length) = front ++ (stem ++ ['.']) := by
      have heq : front ++ (stem ++ '.' :: old) = front ++ (stem ++ ['.']) ++ old := by simp
      rw [heq, List.length_append, Nat.add_sub_cancel, List.take_left]
    have hdot : IsName (stem ++ ['.']) := by
      have hup := hname.stem
      rw [hsplit] at hup
      refine ⟨fun hmem => hname.whole ?_, by simp, by simpa using hstem, fun h => hup ?_⟩
      · rcases List.mem_append.1 hmem with hmem | hmem
        · exact List.mem_append_left _ hmem
        · exact absurd (List.mem_singleton.1 hmem) (by decide)
      · exact List.append_cancel_right (show stem ++ ['.'] = ['.'] ++ ['.'] from h)
    rw [hsplit, Option.getD_some, hcut, setExtension_append hfront hdot,
      splitName_append hstem List.not_mem_nil]

/-- The name of the file that stands for another one while it is written. -/
def temporaryName (name : List Char) : List Char :=
  (splitName name).1 ++ '.' :: "tmp".toList

theorem isName_temporaryName (hname : IsName name) : IsName (temporaryName name) := by
  have hlength : 4 ≤ (temporaryName name).length := by
    rw [temporaryName, List.length_append]
    exact Nat.le_add_left _ _
  refine ⟨fun hmem => hname.whole ?_, ?_, ?_, ?_⟩
  · obtain hsplit | ⟨stem, extension, -, -, rfl, hsplit⟩ := splitName_cases name
    all_goals rw [temporaryName, hsplit] at hmem
    · exact (List.mem_append.1 hmem).resolve_right (by decide)
    · exact List.mem_append_left _ ((List.mem_append.1 hmem).resolve_right (by decide))
  all_goals
    intro h
    rw [h] at hlength
    exact absurd hlength (by decide)

theorem temporaryName_ne (hname : IsName name)
    (hextension : (splitName name).2 ≠ some "tmp".toList) : temporaryName name ≠ name := by
  intro heq
  have hstem : (splitName name).1 ≠ [] := by
    obtain hsplit | ⟨stem, extension, hstem, -, -, hsplit⟩ := splitName_cases name
    · rw [hsplit]
      exact hname.ne_nil
    · rwa [hsplit]
  refine hextension ?_
  have hsplit : splitName (temporaryName name) = ((splitName name).1, some "tmp".toList) :=
    splitName_append hstem (by decide)
  rw [heq] at hsplit
  exact congrArg Prod.snd hsplit

end Path

/-! ## Following a path down -/

namespace FileTree

variable {tree tree' : FileTree} {start place : Location} {front name : List Char}

theorem names_append (hfront : Path.IsFront front) : ∃ before, ∀ name, '/' ∉ name →
    names (String.ofList (front ++ name)) = before ++ [String.ofList name] := by
  rcases hfront with rfl | ⟨directory, rfl⟩
  · refine ⟨[], fun name hname => ?_⟩
    rw [names, String.toList_ofList, List.nil_append, Text.splitAll_of_not_mem hname,
      List.map_singleton, List.nil_append]
  · refine ⟨(Text.splitAll '/' directory).map String.ofList, fun name hname => ?_⟩
    rw [names, String.toList_ofList, List.append_assoc, List.singleton_append, Text.splitAll_append,
      Text.splitAll_of_not_mem hname, List.map_append, List.map_singleton]

/-- Where a path starts does not depend on the name at its end. -/
theorem startOf_append (hfront : Path.IsFront front) {name other : List Char}
    (hname : '/' ∉ name) (hother : '/' ∉ other) : tree.startOf (String.ofList (front ++ name)) =
      tree.startOf (String.ofList (front ++ other)) := by
  have hhead : ∀ name : List Char, '/' ∉ name → name.head? ≠ some '/' := by
    intro name hname h
    exact hname (List.mem_of_mem_head? h)
  rw [startOf, startOf, String.toList_ofList, String.toList_ofList]
  rcases hfront with rfl | ⟨directory, rfl⟩
  · rw [List.nil_append, List.nil_append, if_neg (hhead name hname), if_neg (hhead other hother)]
  · cases directory <;> rfl

theorem walk_append_eq_ok_iff {before after : List String} :
    tree.walk start (before ++ after) = .ok place ↔
      ∃ middle, tree.walk start before = .ok middle ∧ tree.walk middle after = .ok place := by
  induction before generalizing start with
  | nil => exact ⟨fun h => ⟨start, rfl, h⟩, fun ⟨_, hstart, h⟩ => by cases hstart; exact h⟩
  | cons name rest ih =>
    rw [List.cons_append, walk_cons_eq_ok_iff, ih]
    constructor
    · rintro ⟨hstart, hsize, middle, hrest, h⟩
      exact ⟨middle, walk_cons_eq_ok_iff.2 ⟨hstart, hsize, hrest⟩, h⟩
    · rintro ⟨middle, hbefore, h⟩
      obtain ⟨hstart, hsize, hrest⟩ := walk_cons_eq_ok_iff.1 hbefore
      exact ⟨hstart, hsize, middle, hrest, h⟩

theorem next_ofList (hname : Path.IsName name) :
    next start (String.ofList name) = start ++ [String.ofList name] := by
  have hne : ∀ text : String, name ≠ text.toList → String.ofList name ≠ text := by
    rintro _ h rfl
    exact h (String.toList_ofList).symm
  rw [next, if_neg, if_neg (hne ".." hname.ne_up)]
  simp [hname.ne_nil, hne "." hname.ne_dot]

/-- A name at the end of a path leads to an entry with that name. -/
theorem eq_of_walk_name (hname : Path.IsName name) {before : List String}
    (h : tree.walk start (before ++ [String.ofList name]) = .ok place) :
    ∃ directory, tree.walk start before = .ok directory ∧
      place = directory ++ [String.ofList name] := by
  obtain ⟨directory, hbefore, hlast⟩ := walk_append_eq_ok_iff.1 h
  obtain ⟨-, -, hend⟩ := walk_cons_eq_ok_iff.1 hlast
  rw [next_ofList hname] at hend
  exact ⟨directory, hbefore, (Except.ok.inj hend).symm⟩

/-- A path that never leads up ends below where it starts. -/
theorem exists_rest_of_walk {names : List String} (hup : ".." ∉ names)
    (h : tree.walk start names = .ok place) : ∃ rest, place = start ++ rest := by
  induction names generalizing start with
  | nil => exact ⟨[], (Except.ok.inj h).symm.trans (List.append_nil _).symm⟩
  | cons name names ih =>
    obtain ⟨hname, hnames⟩ := not_or.1 (mt List.mem_cons.2 hup)
    obtain ⟨-, -, hrest⟩ := walk_cons_eq_ok_iff.1 h
    obtain ⟨rest, rfl⟩ := ih hnames hrest
    rw [next, if_neg (Ne.symm hname)]
    split
    · exact ⟨rest, rfl⟩
    · exact ⟨name :: rest, List.append_assoc _ _ _⟩

/-- Every entry stands in a directory. -/
def Rooted (tree : FileTree) : Prop :=
  ∀ place name, (tree.stored? (place ++ [name])).isSome → tree.stored? place = some .directory

theorem Rooted.directory (h : tree.Rooted) {rest : Location} (hrest : rest ≠ [])
    (hstored : (tree.stored? (place ++ rest)).isSome) : tree.stored? place = some .directory := by
  induction rest using List.reverseRecOn with
  | nil => exact absurd rfl hrest
  | append_singleton rest name ih =>
    rw [← List.append_assoc] at hstored
    have hlast := h _ name hstored
    by_cases hnil : rest = []
    · rwa [hnil, List.append_nil] at hlast
    · exact ih hnil (by rw [hlast, Option.isSome_some])

/-- A path that leads down to a file once directories have been made has done so before. -/
theorem Rooted.walk (h : tree.Rooted) (hextends : tree.Extends tree') {names : List String}
    {content : Content} (hup : ".." ∉ names) (hwalk : tree'.walk start names = .ok place)
    (hstored : tree.stored? place = some (.file content)) : tree.walk start names = .ok place := by
  induction names generalizing start with
  | nil => exact hwalk
  | cons name names ih =>
    obtain ⟨rest, hplace⟩ := exists_rest_of_walk hup hwalk
    obtain ⟨hstart, hsize, hnext⟩ := walk_cons_eq_ok_iff.1 hwalk
    have hrest : rest ≠ [] := by
      rintro rfl
      rw [List.append_nil] at hplace
      have hfile := hextends.stored place _ hstored
      rw [hplace, hstart] at hfile
      cases hfile
    have hdirectory : tree.stored? start = some .directory := by
      refine h.directory hrest ?_
      rw [← hplace, hstored, Option.isSome_some]
    exact walk_cons_eq_ok_iff.2
      ⟨hdirectory, hsize, ih (mt (List.mem_cons_of_mem _) hup) hnext⟩

end FileTree

/-! ## Plain store paths -/

namespace Membership.FileStore

variable {store : FileStore} {tree : FileTree}

/-- The path of a store never leads up, and ends in a name whose extension is not that of the
temporary file. -/
def Plain (store : FileStore) : Prop :=
  ".." ∉ FileTree.names store.path ∧ ∃ front name, store.path = String.ofList (front ++ name) ∧
    Path.IsFront front ∧ Path.IsFileName name ∧ (Path.splitName name).2 ≠ some "tmp".toList

/-- What is written first is not the store's file. -/
theorem Plain.locate_temporaryPath_ne (plain : store.Plain) {place : Location}
    (hpath : tree.locate store.path = .ok place) : tree.locate store.temporaryPath ≠ .ok place := by
  obtain ⟨-, front, name, heq, hfront, hname, hextension⟩ := plain
  have htemporaryPath : store.temporaryPath =
      String.ofList (front ++ Path.temporaryName name) := by
    rw [temporaryPath, heq, Path.withExtension_append hfront hname, Path.temporaryName]
  have htemporary := Path.isName_temporaryName hname.toIsName
  obtain ⟨before, hbefore⟩ := FileTree.names_append hfront
  intro hlocate
  -- both paths end with a name in the same directory
  obtain ⟨-, hwalk⟩ := FileTree.locate_eq_ok_iff.1 hpath
  obtain ⟨-, hwalk'⟩ := FileTree.locate_eq_ok_iff.1 hlocate
  rw [heq, hbefore name hname.whole] at hwalk
  rw [htemporaryPath, hbefore _ htemporary.whole,
    FileTree.startOf_append hfront htemporary.whole hname.whole] at hwalk'
  obtain ⟨directory, hdirectory, rfl⟩ := FileTree.eq_of_walk_name hname.toIsName hwalk
  obtain ⟨directory', hdirectory', hplace⟩ := FileTree.eq_of_walk_name htemporary hwalk'
  obtain rfl := Except.ok.inj (hdirectory.symm.trans hdirectory')
  have hlast := List.singleton_inj.1 (List.append_cancel_left hplace)
  exact Path.temporaryName_ne hname.toIsName hextension (String.ofList_injective hlast).symm

/-- A store with a plain path is guarded. -/
theorem Plain.guarded (plain : store.Plain) (hrooted : tree.Rooted) : store.Guarded tree where
  content := by
    have hextends := extends_furnish store tree
    cases hcontent : (store.furnish tree).1.content? store.path with
    | none =>
      cases hbefore : tree.content? store.path with
      | none => rfl
      | some content => cases hcontent.symm.trans (hextends.content? hbefore)
    | some content =>
      obtain ⟨place, hlocate, hfile⟩ := FileTree.content?_eq_some_iff.1 hcontent
      obtain ⟨hpath, hwalk⟩ := FileTree.locate_eq_ok_iff.1 hlocate
      have hstored := hextends.file place content hfile
      rw [FileTree.startOf, hextends.workingDir] at hwalk
      refine (FileTree.content?_eq_some_iff.2 ⟨place, ?_, hstored⟩).symm
      exact FileTree.locate_eq_ok_iff.2
        ⟨hpath, hrooted.walk hextends plain.1 hwalk hstored⟩
  apart _ _ hpath htemporary := absurd htemporary (plain.locate_temporaryPath_ne hpath)

example : inRoot.Plain :=
  ⟨by decide, ['/'], "cluster.json".toList, rfl, .inr ⟨[], rfl⟩,
    ⟨⟨by decide, by decide, by decide, by decide⟩, by decide⟩, by decide⟩

end Membership.FileStore

end Converge
