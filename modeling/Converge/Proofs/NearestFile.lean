import Converge.Proofs.BesidePath
import Converge.Settings.Load
import Mathlib.Data.List.Infix
/-!
# The nearest file of settings

An absolute path is searched upwards by its own components: each directory above is named by one
component less, down to none at the root, and two dots are a component like any other.  Main
statement: from an absolute path the file of settings in the nearest directory is found, by the
preferred name if both are there, and none is found just if there is none up to the root
(`findFile_nearest`).
-/

namespace Converge

/-! ## Components -/

namespace Path

/-- The components of an absolute path, as they are written. -/
def components (path : String) : Location :=
  (FileTree.speaking path.toList).map String.ofList

/-- What is left of a body that was trimmed ends in a component that leads somewhere. -/
theorem speaks_of_trimBody {body : List Char} (h : trimBody body ≠ []) :
    FileTree.speaks (splitBody (trimBody body)).2 := by
  induction body using trimBody.induct with
  | case1 => exact absurd (by rw [trimBody, dif_pos rfl]) h
  | case2 body hne cut hlt hempty ih =>
    rw [trimBody, dif_neg hne, if_pos hempty] at h ⊢
    exact ih h
  | case3 body hne cut hlt hempty =>
    rw [trimBody, dif_neg hne, if_neg hempty]
    simpa [FileTree.speaks] using hempty

/-- The last component of a body that was trimmed stands behind what is cut off in front of it. -/
theorem speaking_eq_of_trimBody {body : List Char} (h : trimBody body ≠ []) :
    FileTree.speaking body = FileTree.speaking (splitBody (trimBody body)).1 ++
      [(splitBody (trimBody body)).2] := by
  have hspeaks := speaks_of_trimBody h
  have hlast {name : List Char} (hname : '/' ∉ name) (hspeaks : FileTree.speaks name) :
      FileTree.speaking name = [name] := by
    rw [FileTree.speaking, Text.splitAll_of_not_mem hname, List.filter_cons_of_pos hspeaks,
      List.filter_nil]
  rw [← FileTree.speaking_trimBody]
  rcases splitBody_cases (trimBody body) with ⟨hbody, hwhole⟩ | ⟨hnil, hsame, hwhole⟩
  · exact (congrArg FileTree.speaking hbody).trans
      ((FileTree.speaking_append _ _).trans (congrArg _ (hlast hwhole hspeaks)))
  · rw [hnil, hsame, FileTree.speaking_nil, List.nil_append]
    exact hlast hwhole (hsame ▸ hspeaks)

/-- The parent of an absolute path has one component less, and a path without components has
none. -/
theorem parentChars?_absolute (rest : List Char) :
    (FileTree.speaking ('/' :: rest) = [] ∧ parentChars? ('/' :: rest) = none) ∨
      ∃ parent last, parentChars? ('/' :: rest) = some ('/' :: parent) ∧
        '/' :: parent <+: '/' :: rest ∧
        FileTree.speaking ('/' :: rest) = FileTree.speaking ('/' :: parent) ++ [last] := by
  have hroot (rest : List Char) : FileTree.speaking ('/' :: rest) = FileTree.speaking rest :=
    FileTree.speaking_append [] rest
  have hparent : parentChars? ('/' :: rest) = if trimBody rest ≠ [] then
      some ('/' :: trimBody (splitBody (trimBody rest)).1) else none := rfl
  rw [hparent, hroot]
  by_cases htrim : trimBody rest = []
  · refine .inl ⟨?_, if_neg (not_not.2 htrim)⟩
    rw [← FileTree.speaking_trimBody, htrim, FileTree.speaking_nil]
  · refine .inr ⟨_, (splitBody (trimBody rest)).2, if_pos htrim, ?_, ?_⟩
    · refine (List.prefix_cons_inj '/').2 ((isPrefix_trimBody _).trans ?_)
      refine List.IsPrefix.trans ?_ (isPrefix_trimBody rest)
      rcases splitBody_cases (trimBody rest) with ⟨hbody, -⟩ | ⟨hnil, -, -⟩
      · exact ⟨_, hbody.symm⟩
      · rw [hnil]
        exact List.nil_prefix
    · rw [hroot, FileTree.speaking_trimBody]
      exact speaking_eq_of_trimBody htrim

theorem exists_eq_cons_of_isAbsolute {path : String} (h : isAbsolute path) :
    ∃ rest, path.toList = '/' :: rest :=
  List.head?_eq_some_iff.1 (of_decide_eq_true h)

/-- An absolute path without components has no parent, and any other has an absolute one that is a
part of it and has one component less. -/
theorem parent?_of_isAbsolute {path : String} (h : isAbsolute path) :
    (components path = [] ∧ parent? path = none) ∨
      ∃ parent last, parent? path = some parent ∧ isAbsolute parent ∧
        parent.toList <+: path.toList ∧ components path = components parent ++ [last] := by
  obtain ⟨rest, hpath⟩ := exists_eq_cons_of_isAbsolute h
  rw [parent?, components, hpath]
  rcases parentChars?_absolute rest with ⟨hnil, hnone⟩ | ⟨parent, last, hsome, hprefix, hlast⟩
  · exact .inl ⟨by rw [hnil]; rfl, by rw [hnone]; rfl⟩
  · refine .inr ⟨String.ofList ('/' :: parent), String.ofList last, by rw [hsome]; rfl, ?_, ?_, ?_⟩
    · rw [isAbsolute, String.toList_ofList]
      rfl
    · rwa [String.toList_ofList]
    · rw [hlast, List.map_append, components, String.toList_ofList]
      rfl

/-- The directories that are searched from an absolute path have its components, one less at a time,
and are parts of it. -/
theorem ancestors_of_isAbsolute {path : String} (h : isAbsolute path) :
    (ancestors path).map components = (components path).inits.reverse ∧
      ∀ directory ∈ ancestors path, isAbsolute directory ∧ directory.toList <+: path.toList := by
  rcases parent?_of_isAbsolute h with ⟨hnil, hnone⟩ | ⟨parent, last, hsome, habs, hprefix, hlast⟩
  · rw [ancestors_of_none hnone, List.map_singleton, hnil]
    exact ⟨rfl, List.forall_mem_singleton.2 ⟨h, List.prefix_rfl⟩⟩
  · have hlt : parent.length < path.length := length_lt_of_parent? hsome
    obtain ⟨hmap, hall⟩ := ancestors_of_isAbsolute habs
    rw [ancestors_of_some hsome, List.map_cons, hmap, hlast, List.inits_append]
    refine ⟨by simp, List.forall_mem_cons.2 ⟨⟨h, List.prefix_rfl⟩, fun directory hmem => ?_⟩⟩
    exact ⟨(hall directory hmem).1, (hall directory hmem).2.trans hprefix⟩
termination_by path.length

/-- A name that is joined to a path is one more component. -/
theorem components_join (directory : String) {name : String} (hname : IsName name.toList) :
    components (join directory name) = components directory ++ [name] := by
  have hrelative : isAbsolute name = false :=
    decide_eq_false fun hhead => hname.whole (List.mem_of_mem_head? hhead)
  have hspeaks : FileTree.speaking name.toList = [name.toList] := by
    rw [FileTree.speaking, Text.splitAll_of_not_mem hname.whole, List.filter_cons_of_pos,
      List.filter_nil]
    simp [FileTree.speaks, hname.ne_nil, hname.ne_dot]
  obtain ⟨front, hfront, hjoin, hsame, -⟩ := FileTree.exists_front_join directory hrelative
  have hspeaking : FileTree.speaking (front ++ name.toList) =
      FileTree.speaking front ++ [name.toList] := by
    rcases hfront with rfl | ⟨before, rfl⟩
    · rw [FileTree.speaking_nil]
      exact hspeaks
    · rw [List.append_assoc, List.singleton_append, FileTree.speaking_append, hspeaks,
        FileTree.speaking_append, FileTree.speaking_nil, List.append_nil]
  rw [components, hjoin, hspeaking, hsame, List.map_append, List.map_singleton,
    String.ofList_toList, components]

end Path

/-! ## Disks that are asked -/

/-- What is on a disk is settled, and the disk does no more than note what it is asked for. -/
structure Disk.AnswersFrom {σ : Type} (disk : Disk (StateM σ)) (present : σ → String → Bool)
    (note : String → σ → σ) : Prop where
  isPresent : ∀ path s, (disk.isPresent path).run s = (present s path, note path s)
  settled : ∀ path s, present (note path s) = present s

theorem FileTree.answersFrom_disk {σ : Type} (get : σ → FileTree) (set : FileTree → σ → σ) :
    (FileTree.disk get set).AnswersFrom (fun s => (get s).isPresent) fun _ s => s where
  isPresent _ _ := rfl
  settled _ _ := rfl

namespace Settings

/-! ## What is to be found -/

/-- The file of settings in a directory, by the preferred name if both are there, when none stands
in the nearer ones. -/
structure IsNearest (present : String → Bool) (nearer : List String) (directory path : String) :
    Prop where
  isPresent : present path
  named : path = Path.join directory "fleet.yaml" ∨
    path = Path.join directory "fleet.yml" ∧ present (Path.join directory "fleet.yaml") = false
  nearer : ∀ other ∈ nearer, ∀ name ∈ fileNames, present (Path.join other name) = false

/-- No directory has a file of settings. -/
def NoneIn (present : String → Bool) (directories : List String) : Prop :=
  ∀ directory ∈ directories, ∀ name ∈ fileNames, present (Path.join directory name) = false

theorem isEntryName_of_mem_fileNames {name : String} (h : name ∈ fileNames) :
    FileTree.IsEntryName name := by
  rcases List.mem_cons.1 h with rfl | h
  · exact ⟨⟨by decide, by decide, by decide, by decide⟩, by decide, by decide⟩
  · obtain rfl := List.mem_singleton.1 h
    exact ⟨⟨by decide, by decide, by decide, by decide⟩, by decide, by decide⟩

section

variable {present : String → Bool} {directory path : String} {nearer farther : List String}

/-- In a directory the preferred name is looked for first. -/
theorem find?_fileNames :
    (fileNames.map (Path.join directory)).find? present = some path ↔
      IsNearest present [] directory path := by
  have hfind : (fileNames.map (Path.join directory)).find? present =
      if present (Path.join directory "fleet.yaml") then some (Path.join directory "fleet.yaml")
      else if present (Path.join directory "fleet.yml") then some (Path.join directory "fleet.yml")
      else none := by
    simp only [fileNames, List.map_cons, List.map_nil, List.find?_cons, List.find?_nil]
    cases present (Path.join directory "fleet.yaml") <;>
      cases present (Path.join directory "fleet.yml") <;> rfl
  rw [hfind]
  constructor
  · intro h
    split at h
    · next hyaml =>
      obtain rfl := Option.some.inj h
      exact ⟨hyaml, .inl rfl, nofun⟩
    · next hyaml =>
      split at h
      · next hyml =>
        obtain rfl := Option.some.inj h
        exact ⟨hyml, .inr ⟨rfl, eq_false_of_ne_true hyaml⟩, nofun⟩
      · cases h
  · rintro ⟨hpresent, rfl | ⟨rfl, hyaml⟩, -⟩
    · rw [if_pos hpresent]
    · rw [if_neg (by rw [hyaml]; exact Bool.false_ne_true), if_pos hpresent]

theorem find?_fileNames_eq_none : (fileNames.map (Path.join directory)).find? present = none ↔
    ∀ name ∈ fileNames, present (Path.join directory name) = false := by
  simp [List.find?_eq_none]

/-- What is nearest from a directory without files is nearest from the one above. -/
theorem isNearest_cons_iff {first : String} :
    IsNearest present (first :: nearer) directory path ↔
      (∀ name ∈ fileNames, present (Path.join first name) = false) ∧
        IsNearest present nearer directory path := by
  constructor
  · rintro ⟨hpresent, hnamed, hnearer⟩
    obtain ⟨hfirst, hrest⟩ := List.forall_mem_cons.1 hnearer
    exact ⟨hfirst, hpresent, hnamed, hrest⟩
  · rintro ⟨hfirst, hpresent, hnamed, hrest⟩
    exact ⟨hpresent, hnamed, List.forall_mem_cons.2 ⟨hfirst, hrest⟩⟩

theorem find?_eq_some_iff_isNearest {directories : List String} :
    (directories.flatMap fun directory => fileNames.map (Path.join directory)).find? present =
        some path ↔
      ∃ nearer directory farther, directories = nearer ++ directory :: farther ∧
        IsNearest present nearer directory path := by
  induction directories with
  | nil => simp
  | cons first rest ih =>
    rw [List.flatMap_cons, List.find?_append, Option.or_eq_some_iff, find?_fileNames,
      find?_fileNames_eq_none, ih]
    constructor
    · rintro (hhere | ⟨hnone, nearer, directory, farther, rfl, hnearest⟩)
      · exact ⟨[], first, rest, rfl, hhere⟩
      · exact ⟨first :: nearer, directory, farther, rfl, isNearest_cons_iff.2 ⟨hnone, hnearest⟩⟩
    · rintro ⟨nearer, directory, farther, heq, hnearest⟩
      cases nearer with
      | nil =>
        obtain ⟨rfl, rfl⟩ := List.cons.inj heq
        exact .inl hnearest
      | cons other nearer =>
        obtain ⟨rfl, rfl⟩ := List.cons.inj heq
        obtain ⟨hnone, hnearest⟩ := isNearest_cons_iff.1 hnearest
        exact .inr ⟨hnone, nearer, directory, farther, rfl, hnearest⟩

end

theorem find?_eq_none_iff_noneIn {present : String → Bool} {directories : List String} :
    (directories.flatMap fun directory => fileNames.map (Path.join directory)).find? present =
        none ↔ NoneIn present directories := by
  simp [NoneIn, List.find?_eq_none]

/-! ## The search -/

section

variable {σ : Type} {disk : Disk (StateM σ)} {present : σ → String → Bool}
  {note : String → σ → σ}

/-- Of some paths the first is found that is on the disk, and no path behind it is asked for. -/
theorem run_firstPresent_of_answersFrom (answers : disk.AnswersFrom present note)
    (paths : List String) (s : σ) : ∃ asked, asked <+: paths ∧
      (∀ path, paths.find? (present s) = some path → asked.getLast? = some path) ∧
      (firstPresent disk paths).run s =
        (paths.find? (present s), asked.foldl (fun s path => note path s) s) := by
  induction paths generalizing s with
  | nil => exact ⟨[], List.prefix_rfl, nofun, rfl⟩
  | cons path rest ih =>
    have hrun : (firstPresent disk (path :: rest)).run s =
        (if present s path then (pure (some path) : StateM σ (Option String))
          else firstPresent disk rest).run (note path s) := by
      rw [firstPresent, StateT.run_bind, answers.isPresent]
      rfl
    rw [hrun]
    cases hpresent : present s path with
    | true =>
      rw [List.find?_cons_of_pos hpresent]
      exact ⟨[path], ⟨rest, rfl⟩, fun _ h => h, rfl⟩
    | false =>
      obtain ⟨asked, hprefix, hlast, hrest⟩ := ih (note path s)
      rw [answers.settled] at hlast hrest
      rw [List.find?_cons_of_neg (by simp [hpresent])]
      refine ⟨path :: asked, (List.prefix_cons_inj path).2 hprefix, fun found hfound => ?_, hrest⟩
      rw [List.getLast?_cons, hlast found hfound]
      rfl

/-- From an absolute path the directories are searched that have its components, one less at a time
down to none, and paths are asked for in this order, at most two for each directory.  The nearest
file of settings is found, and it is an entry of its directory; and the search fails just if there
is none, with the path that the preferred file would have at the start. -/
theorem findFile_nearest (answers : disk.AnswersFrom present note) {start : String}
    (h : Path.isAbsolute start) (s : σ) :
    let directories := Path.ancestors start
    (directories.head? = some start ∧
      directories.map Path.components = (Path.components start).inits.reverse ∧
      ∀ directory ∈ directories, Path.isAbsolute directory ∧
        directory.toList <+: start.toList ∧ ∀ name ∈ fileNames,
          Path.components (Path.join directory name) = Path.components directory ++ [name]) ∧
    ∃ (asked : List String) (result : Except Error String),
      (asked <+: directories.flatMap fun directory => fileNames.map (Path.join directory)) ∧
      asked.length ≤ 2 * ((Path.components start).length + 1) ∧
      exec (findFile disk start) s = (result, asked.foldl (fun s path => note path s) s) ∧
      (∀ path, result = .ok path ↔ ∃ nearer directory farther,
        directories = nearer ++ directory :: farther ∧
          IsNearest (present s) nearer directory path) ∧
      ∀ e, result = .error e ↔ e = .configNotFound (Path.join start "fleet.yaml") ∧
        NoneIn (present s) directories := by
  intro directories
  obtain ⟨hmap, hall⟩ := Path.ancestors_of_isAbsolute h
  refine ⟨⟨Path.head?_ancestors start, hmap, fun directory hmem => ⟨(hall directory hmem).1,
    (hall directory hmem).2, fun name hname =>
      Path.components_join directory (isEntryName_of_mem_fileNames hname).toIsName⟩⟩, ?_⟩
  obtain ⟨asked, hprefix, -, hrun⟩ :=
    run_firstPresent_of_answersFrom answers (candidates start) s
  have hlength : asked.length ≤ 2 * ((Path.components start).length + 1) := by
    have hcount : directories.length = (Path.components start).length + 1 := by
      rw [← List.length_map (f := Path.components), hmap, List.length_reverse, List.length_inits]
    refine hprefix.length_le.trans (le_of_eq ?_)
    rw [candidates, List.length_flatMap]
    simp [fileNames, directories, ← hcount, Nat.mul_comm]
  have hnearest : exec (liftM (nearestFile? disk start)) s =
      (.ok ((candidates start).find? (present s)), asked.foldl (fun s path => note path s) s) := by
    show (Except.ok ((nearestFile? disk start).run s).1, ((nearestFile? disk start).run s).2) = _
    rw [nearestFile?, hrun]
  refine ⟨asked, ((candidates start).find? (present s)).elim
    (.error (.configNotFound (Path.join start "fleet.yaml"))) .ok, hprefix, hlength, ?_, ?_, ?_⟩
  · rw [findFile, exec_bind_ok hnearest]
    cases (candidates start).find? (present s) <;> rfl
  · intro path
    rw [← find?_eq_some_iff_isNearest, ← candidates]
    cases (candidates start).find? (present s) <;> simp
  · intro e
    rw [← find?_eq_none_iff_noneIn, ← candidates]
    cases (candidates start).find? (present s) <;> simp [eq_comm]

end

/-- A tree with a file of settings in a directory and one with the preferred name below it. -/
def plansTree : FileTree :=
  ⟨[(["work"], .directory), (["work", "site"], .directory), (["work", "plans"], .directory),
    (["work", "fleet.yml"], .file (.text "")),
    (["work", "site", "fleet.yaml"], .file (.text ""))], []⟩

/-- Two dots are a directory of their own, which is nearer than the one that they stand in. -/
theorem findFile_nearest_plansTree :
    exec (findFile (FileTree.disk id fun tree _ => tree) "/work/site/../plans") plansTree =
      (.ok "/work/site/../fleet.yml", plansTree) := by
  have habsolute : Path.isAbsolute "/work/site/../plans" := by decide
  obtain ⟨-, asked, result, -, -, hrun, hok, -⟩ :=
    findFile_nearest (FileTree.answersFrom_disk id fun tree _ => tree) habsolute plansTree
  have hresult : result = .ok "/work/site/../fleet.yml" := (hok _).2
    ⟨["/work/site/../plans"], "/work/site/..", ["/work/site", "/work", "/"], by decide +kernel, {
      isPresent := by decide +kernel
      named := .inr ⟨by decide +kernel, by decide +kernel⟩
      nearer := by decide +kernel }⟩
  rw [hrun, hresult, List.foldl_fixed]

end Settings

end Converge
