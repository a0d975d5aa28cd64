import Converge.Proofs.NearestFile
/-!
# The search for a file of settings

From the absolute path of the working directory every directory above is searched; from a dot only
the working directory is, for the path that is left after it is empty.  Main statement: the two find
the file in the nearest directory just if that is the working directory itself, and the path of the
file is not too long (`found?_eq_nearest?_iff`).
-/

namespace Converge.Settings

open FileTree

/-! ## What is to be found -/

/-- Where a file of settings may stand, from a directory upwards. -/
def places (directory : Location) : List Location :=
  directory.inits.reverse.flatMap fun above => fileNames.map fun name => above ++ [name]

/-- The file of settings in the nearest directory, from a directory upwards. -/
def nearest? (tree : FileTree) (directory : Location) : Option Location :=
  (places directory).find? fun place => (tree.stored? place).isSome

/-- The file that the search from a directory finds. -/
def found? (tree : FileTree) (start : String) : Option Location :=
  (exec (findFile Membership.FileStore.treeDisk start) tree).1.toOption.bind fun path =>
    (tree.locate path).toOption

/-- A tree in which a program can be at work: entries stand in directories, and the working
directory is one. -/
structure IsWorkable (tree : FileTree) : Prop where
  rooted : tree.Rooted
  directory : tree.stored? tree.workingDir = some .directory
  names : ∀ name ∈ tree.workingDir, IsEntryName name

/-! ## The search on a tree -/

theorem run_firstPresent {σ : Type} (get : σ → FileTree) (set : FileTree → σ → σ)
    (paths : List String) (s : σ) :
    (firstPresent (FileTree.disk get set) paths).run s =
      (paths.find? (get s).isPresent, s) := by
  obtain ⟨asked, -, -, hrun⟩ :=
    run_firstPresent_of_answersFrom (FileTree.answersFrom_disk get set) paths s
  rw [hrun, List.foldl_fixed]

theorem found?_eq (tree : FileTree) (start : String) :
    found? tree start = ((candidates start).find? tree.isPresent).bind fun path =>
      (tree.locate path).toOption := by
  have hrun : (nearestFile? Membership.FileStore.treeDisk start).run tree = _ :=
    run_firstPresent id (fun tree _ => tree) (candidates start) tree
  have hnearest : exec (liftM (nearestFile? Membership.FileStore.treeDisk start)) tree =
      (.ok ((candidates start).find? tree.isPresent), tree) := by
    show (Except.ok ((nearestFile? Membership.FileStore.treeDisk start).run tree).1,
      ((nearestFile? Membership.FileStore.treeDisk start).run tree).2) = _
    rw [hrun]
    rfl
  rw [found?, findFile, exec_bind_ok hnearest]
  cases (candidates start).find? tree.isPresent <;> rfl

/-! ## From the absolute path -/

/-- A directory comes before those above it. -/
theorem places_append (above : Location) (name : String) : places (above ++ [name]) =
    (fileNames.map fun file => above ++ [name] ++ [file]) ++ places above := by
  rw [places, List.inits_append, List.reverse_append, List.flatMap_append]
  simp [places]

theorem exists_of_mem_places {directory place : Location} (h : place ∈ places directory) :
    ∃ above name, above <+: directory ∧ name ∈ fileNames ∧ place = above ++ [name] := by
  obtain ⟨above, habove, hplace⟩ := List.mem_flatMap.1 h
  obtain ⟨name, hname, rfl⟩ := List.mem_map.1 hplace
  exact ⟨above, name, (List.mem_inits _ _).1 (List.mem_reverse.1 habove), hname, rfl⟩

theorem candidates_absolute {directory : Location} (h : ∀ name ∈ directory, IsEntryName name) :
    candidates (absolute directory) = (places directory).map absolute := by
  have hnames {above : Location} (habove : ∀ name ∈ above, IsEntryName name) :
      fileNames.map (Path.join (absolute above)) =
        (fileNames.map fun name => above ++ [name]).map absolute := by
    rw [List.map_map]
    exact List.map_congr_left fun name hname =>
      join_absolute habove (isEntryName_of_mem_fileNames hname)
  induction directory using List.reverseRecOn with
  | nil =>
    rw [candidates, ancestors_absolute_root, List.flatMap_singleton, hnames h]
    rfl
  | append_singleton above name ih =>
    have habove : ∀ other ∈ above, IsEntryName other := fun other hother =>
      h other (List.mem_append_left _ hother)
    have hrest := ih habove
    rw [candidates, ancestors_absolute habove (h name (by simp)), List.flatMap_cons, hnames h,
      places_append, List.map_append, ← hrest]
    rfl

theorem find?_congr {α : Type} {p q : α → Bool} {items : List α}
    (h : ∀ item ∈ items, p item = q item) : items.find? p = items.find? q := by
  induction items with
  | nil => rfl
  | cons item rest ih =>
    obtain ⟨hitem, hrest⟩ := List.forall_mem_cons.1 h
    rw [List.find?_cons, List.find?_cons, hitem, ih hrest]

theorem isEntryName_of_mem_places {directory place : Location}
    (h : ∀ name ∈ directory, IsEntryName name) (hplace : place ∈ places directory) :
    ∀ name ∈ place, IsEntryName name := by
  obtain ⟨above, file, habove, hfile, rfl⟩ := exists_of_mem_places hplace
  intro name hname
  rcases List.mem_append.1 hname with hname | hname
  · exact h name (habove.subset hname)
  · rw [List.mem_singleton.1 hname]
    exact isEntryName_of_mem_fileNames hfile

/-- From an absolute path the nearest file is found whose path is not too long. -/
theorem found?_absolute {tree : FileTree} (h : IsWorkable tree) :
    found? tree (absolute tree.workingDir) = (places tree.workingDir).find? fun place =>
      (tree.stored? place).isSome && (absolute place).utf8ByteSize ≤ maxPathSize := by
  have hnames {place : Location} (hplace : place ∈ places tree.workingDir) :=
    isEntryName_of_mem_places h.names hplace
  have hpresent : (places tree.workingDir).find? (tree.isPresent ∘ absolute) =
      (places tree.workingDir).find? fun place =>
        (tree.stored? place).isSome && (absolute place).utf8ByteSize ≤ maxPathSize := by
    refine find?_congr fun place hplace => Bool.eq_iff_iff.2 ?_
    rw [Function.comp_apply, h.rooted.isPresent_absolute (hnames hplace), Bool.and_eq_true,
      decide_eq_true_eq]
  rw [found?_eq, candidates_absolute h.names, List.find?_map, hpresent]
  cases hfind : (places tree.workingDir).find? fun place =>
      (tree.stored? place).isSome && (absolute place).utf8ByteSize ≤ maxPathSize with
  | none => rfl
  | some place =>
    have hplace := List.find?_some hfind
    rw [Bool.and_eq_true, decide_eq_true_eq] at hplace
    have hlocate := h.rooted.locate_absolute (hnames (List.mem_of_find?_eq_some hfind)) hplace.1
      hplace.2
    rw [Option.map_some, Option.bind_some, hlocate]
    rfl

/-! ## From a dot -/

theorem candidates_dot :
    candidates "." = ["./fleet.yaml", "./fleet.yml", "fleet.yaml", "fleet.yml"] := by
  decide +kernel

/-- A file of the working directory is found by its name, with or without a dot in front. -/
theorem locate_name {tree : FileTree} (h : tree.stored? tree.workingDir = some .directory)
    {name : String} (hname : name ∈ fileNames) :
    tree.locate ("./" ++ name) = .ok (tree.workingDir ++ [name]) ∧
      tree.locate name = .ok (tree.workingDir ++ [name]) := by
  have hentry := isEntryName_of_mem_fileNames hname
  have hwalk : tree.walk tree.workingDir [name] = .ok (tree.workingDir ++ [name]) := by
    refine walk_cons_eq_ok_iff.2 ⟨h, hentry.size_le, ?_⟩
    rw [next_entryName hentry]
    rfl
  have hdot : tree.walk tree.workingDir [".", name] = .ok (tree.workingDir ++ [name]) :=
    walk_cons_eq_ok_iff.2 ⟨h, by decide, hwalk⟩
  rcases List.mem_cons.1 hname with rfl | hname
  · exact ⟨locate_eq_ok_iff.2 ⟨by decide, hdot⟩, locate_eq_ok_iff.2 ⟨by decide, hwalk⟩⟩
  · obtain rfl := List.mem_singleton.1 hname
    exact ⟨locate_eq_ok_iff.2 ⟨by decide, hdot⟩, locate_eq_ok_iff.2 ⟨by decide, hwalk⟩⟩

/-- From a dot only the working directory is searched. -/
theorem found?_dot {tree : FileTree} (h : IsWorkable tree) :
    found? tree "." = (fileNames.map fun name => tree.workingDir ++ [name]).find? fun place =>
      (tree.stored? place).isSome := by
  have hyamlName : "fleet.yaml" ∈ fileNames := by decide
  have hymlName : "fleet.yml" ∈ fileNames := by decide
  obtain ⟨hdotYaml, hyaml⟩ := locate_name h.directory hyamlName
  obtain ⟨hdotYml, hyml⟩ := locate_name h.directory hymlName
  have hpresent {path : String} {place : Location} (hlocate : tree.locate path = .ok place) :
      tree.isPresent path = (tree.stored? place).isSome := by
    rw [isPresent, hlocate]
  rw [found?_eq, candidates_dot]
  show Option.bind (List.find? _ ["./" ++ "fleet.yaml", "./" ++ "fleet.yml", "fleet.yaml",
    "fleet.yml"]) _ = List.find? _ [tree.workingDir ++ ["fleet.yaml"],
      tree.workingDir ++ ["fleet.yml"]]
  simp only [List.find?_cons, hpresent hdotYaml, hpresent hdotYml, hpresent hyaml, hpresent hyml]
  cases (tree.stored? (tree.workingDir ++ ["fleet.yaml"])).isSome
  · cases (tree.stored? (tree.workingDir ++ ["fleet.yml"])).isSome
    · rfl
    · simp only [Option.bind_some, hdotYml]
      rfl
  · simp only [Option.bind_some, hdotYaml]
    rfl

/-! ## The two searches -/

/-- A file of the working directory is searched for before any other. -/
theorem places_eq (directory : Location) : ∃ above,
    places directory = (fileNames.map fun name => directory ++ [name]) ++ above ∧
      ∀ place ∈ above, place.dropLast ≠ directory := by
  induction directory using List.reverseRecOn with
  | nil => exact ⟨[], rfl, nofun⟩
  | append_singleton directory name _ =>
    refine ⟨places directory, places_append directory name, fun place hplace heq => ?_⟩
    obtain ⟨above, file, habove, -, rfl⟩ := exists_of_mem_places hplace
    rw [List.dropLast_concat] at heq
    have hlength := habove.length_le
    rw [heq, List.length_append, List.length_singleton] at hlength
    omega

/-- Both searches find the nearest file just if it is in the working directory, and its absolute
path is not too long. -/
theorem found?_eq_nearest?_iff {tree : FileTree} (h : IsWorkable tree) :
    (found? tree "." = nearest? tree tree.workingDir ∧
      found? tree (absolute tree.workingDir) = nearest? tree tree.workingDir) ↔
    ∀ place, nearest? tree tree.workingDir = some place → place.dropLast = tree.workingDir ∧
      (absolute place).utf8ByteSize ≤ maxPathSize := by
  rw [found?_dot h, found?_absolute h]
  constructor
  · rintro ⟨hdot, habsolute⟩ place hplace
    rw [hplace] at hdot habsolute
    have hmem := List.mem_of_find?_eq_some hdot
    obtain ⟨name, -, rfl⟩ := List.mem_map.1 hmem
    have hsize := List.find?_some habsolute
    rw [Bool.and_eq_true, decide_eq_true_eq] at hsize
    exact ⟨List.dropLast_concat, hsize.2⟩
  · intro hnear
    -- no place above the working directory has that as its directory
    obtain ⟨above, hplaces, habove⟩ := places_eq tree.workingDir
    cases hfind : nearest? tree tree.workingDir with
    | none =>
      have hnone := List.find?_eq_none.1 hfind
      constructor
      · refine List.find?_eq_none.2 fun place hplace => hnone place ?_
        rw [hplaces]
        exact List.mem_append_left _ hplace
      · refine List.find?_eq_none.2 fun place hplace hboth => hnone place hplace ?_
        exact (Bool.and_eq_true_iff.1 hboth).1
    | some place =>
      obtain ⟨hdirectory, hsize⟩ := hnear place hfind
      constructor
      · rw [nearest?, hplaces, List.find?_append] at hfind
        rcases Option.or_eq_some_iff.1 hfind with hhere | ⟨-, habove'⟩
        · exact hhere
        · exact absurd hdirectory (habove place (List.mem_of_find?_eq_some habove'))
      · obtain ⟨hstored, before, after, hsplit, hbefore⟩ := List.find?_eq_some_iff_append.1 hfind
        refine List.find?_eq_some_iff_append.2 ⟨?_, before, after, hsplit, fun other hother => ?_⟩
        · rw [hstored, decide_eq_true hsize]
          rfl
        · rw [Bool.not_and, hbefore other hother, Bool.true_or]

/-- A tree with a working directory below the root and one file. -/
def workTree (file : Location) : FileTree :=
  ⟨[(["work"], .directory), (file, .file (.text ""))], ["work"]⟩

theorem isWorkable_workTree {file : Location}
    (hfile : file.dropLast = [] ∨ file.dropLast = ["work"]) : IsWorkable (workTree file) where
  rooted place name hstored := by
    have hplace : place ++ [name] = ["work"] ∨ place ++ [name] = file := by
      rw [stored?, if_neg (by simp), workTree, List.lookup_cons, List.lookup_cons] at hstored
      by_cases hwork : place ++ [name] = ["work"]
      · exact .inl hwork
      · by_cases hname : place ++ [name] = file
        · exact .inr hname
        · simp [beq_eq_false_iff_ne.2 hwork, beq_eq_false_iff_ne.2 hname] at hstored
    have hdirectory : place = [] ∨ place = ["work"] := by
      rcases hplace with hplace | hplace
      · exact .inl (by simpa using congrArg List.dropLast hplace)
      · rw [← hplace, List.dropLast_concat] at hfile
        exact hfile
    rcases hdirectory with rfl | rfl <;> rfl
  directory := rfl
  names := by
    intro name hname
    obtain rfl := List.mem_singleton.1 hname
    exact ⟨⟨by decide, by decide, by decide, by decide⟩, by decide, by decide⟩

theorem found?_eq_nearest?_workTree :
    found? (workTree ["work", "fleet.yml"]) "." =
        nearest? (workTree ["work", "fleet.yml"]) ["work"] ∧
      found? (workTree ["work", "fleet.yml"]) (absolute ["work"]) =
        nearest? (workTree ["work", "fleet.yml"]) ["work"] := by
  refine (found?_eq_nearest?_iff (isWorkable_workTree (.inr rfl))).2 fun place hplace => ?_
  obtain rfl : ["work", "fleet.yml"] = place := Option.some.inj hplace
  exact ⟨rfl, by decide⟩

/-- From a dot the file in the directory above is not found. -/
theorem found?_ne_nearest?_workTree : IsWorkable (workTree ["fleet.yaml"]) ∧
    nearest? (workTree ["fleet.yaml"]) ["work"] = some ["fleet.yaml"] ∧
    found? (workTree ["fleet.yaml"]) (absolute ["work"]) = some ["fleet.yaml"] ∧
    found? (workTree ["fleet.yaml"]) "." = none := by
  have hworkable : IsWorkable (workTree ["fleet.yaml"]) := isWorkable_workTree (.inl rfl)
  refine ⟨hworkable, rfl, (found?_absolute hworkable).trans ?_, (found?_dot hworkable).trans rfl⟩
  decide

end Converge.Settings
