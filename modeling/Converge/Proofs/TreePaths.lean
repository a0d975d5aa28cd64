import Converge.Disk.FileTree
/-!
# What paths lead to

A path leads to the same place in every tree that has the directories of the first
(`Reaches.locate`).  So what is at the end of a path stays while directories are made that were
missing, in full or in part (`extends_createDirsFrom_take`, `Extends.content?`), and while a file is
changed that the path does not lead to (`AltersAt.content?_eq`).
-/

namespace Converge.FileTree

variable {tree tree' tree'' : FileTree} {path : String} {place : Location} {content : Content}

/-- The content of the file that a path leads to. -/
def content? (tree : FileTree) (path : String) : Option Content :=
  (tree.read path).toOption

theorem content?_eq_some_iff : tree.content? path = some content ↔
    ∃ place, tree.locate path = .ok place ∧ tree.stored? place = some (.file content) := by
  constructor
  · intro h
    unfold content? read at h
    cases hlocate : tree.locate path with
    | error e =>
      rw [hlocate] at h
      cases h
    | ok place =>
      rw [hlocate] at h
      refine ⟨place, rfl, ?_⟩
      cases hstored : tree.stored? place with
      | none =>
        simp only [bind, Except.bind, hstored] at h
        cases h
      | some entry =>
        simp only [bind, Except.bind, hstored] at h
        cases entry <;> cases h
        rfl
  · rintro ⟨place, hlocate, hstored⟩
    rw [content?, read_eq hlocate hstored, Except.toOption]

/-! ## Following a path in another tree -/

/-- The directories of a tree are in another one, in which paths start from the same directory. -/
structure Reaches (tree tree' : FileTree) : Prop where
  workingDir : tree'.workingDir = tree.workingDir
  directory : ∀ place, tree.stored? place = some .directory → tree'.stored? place = some .directory

theorem expectDirectory_eq_ok_iff :
    tree.expectDirectory place = .ok ⟨⟩ ↔ tree.stored? place = some .directory := by
  unfold expectDirectory
  rcases tree.stored? place with _ | _ | _ <;> simp [pure, Except.pure, throw, throwThe]

/-- Where a name leads from a place. -/
def next (start : Location) (name : String) : Location :=
  if name = "" || name = "." then start
  else if name = ".." then start.dropLast
  else start ++ [name]

/-- Names are followed one by one, each from a directory. -/
theorem walk_cons_eq_ok_iff {start : Location} {name : String} {rest : List String} :
    tree.walk start (name :: rest) = .ok place ↔ tree.stored? start = some .directory ∧
      name.utf8ByteSize ≤ maxNameSize ∧ tree.walk (next start name) rest = .ok place := by
  rw [walk, next]
  cases hstart : tree.expectDirectory start with
  | error e =>
    refine iff_of_false nofun fun h => ?_
    rw [expectDirectory_eq_ok_iff.2 h.1] at hstart
    cases hstart
  | ok _ =>
    rw [and_iff_right (expectDirectory_eq_ok_iff.1 hstart)]
    simp only [bind, Except.bind]
    split
    · next hblank =>
      have hsize : name.utf8ByteSize ≤ maxNameSize := by
        obtain rfl | rfl : name = "" ∨ name = "." := by simpa using hblank
        · decide
        · decide
      exact (and_iff_right hsize).symm
    · split
      · next hup =>
        have hsize : name.utf8ByteSize ≤ maxNameSize := by
          rw [hup]
          decide
        exact (and_iff_right hsize).symm
      · split
        · next hlong => exact iff_of_false nofun fun h => absurd h.1 (Nat.not_le.2 hlong)
        · next hsize => exact (and_iff_right (Nat.not_lt.1 hsize)).symm

theorem Reaches.walk (h : tree.Reaches tree') {start : Location} {names : List String}
    (hwalk : tree.walk start names = .ok place) : tree'.walk start names = .ok place := by
  induction names generalizing start with
  | nil => exact hwalk
  | cons name rest ih =>
    obtain ⟨hstart, hsize, hrest⟩ := walk_cons_eq_ok_iff.1 hwalk
    exact walk_cons_eq_ok_iff.2 ⟨h.directory start hstart, hsize, ih hrest⟩

/-- A path that can be followed is neither empty nor too long. -/
theorem locate_eq_ok_iff : tree.locate path = .ok place ↔
    (¬ path.isEmpty ∧ ¬ path.utf8ByteSize > maxPathSize ∧ '\x00' ∉ path.toList) ∧
      tree.walk (tree.startOf path) (names path) = .ok place := by
  unfold FileTree.locate
  split
  · next hempty => exact iff_of_false nofun fun h => h.1.1 hempty
  · next hempty =>
    split
    · next hsize => exact iff_of_false nofun fun h => h.1.2.1 hsize
    · next hsize =>
      split
      · next hnul => exact iff_of_false nofun fun h => h.1.2.2 hnul
      · next hnul => exact (and_iff_right ⟨hempty, hsize, hnul⟩).symm

/-- A path leads to the same place. -/
theorem Reaches.locate (h : tree.Reaches tree') (hlocate : tree.locate path = .ok place) :
    tree'.locate path = .ok place := by
  obtain ⟨hpath, hwalk⟩ := locate_eq_ok_iff.1 hlocate
  refine locate_eq_ok_iff.2 ⟨hpath, ?_⟩
  rw [startOf, h.workingDir]
  exact h.walk hwalk

/-! ## Directories that are made -/

/-- Nothing in a tree is missing or different in another one, and only directories are new. -/
structure Extends (tree tree' : FileTree) : Prop where
  workingDir : tree'.workingDir = tree.workingDir
  stored : ∀ place entry, tree.stored? place = some entry → tree'.stored? place = some entry
  file : ∀ place content, tree'.stored? place = some (.file content) →
    tree.stored? place = some (.file content)

theorem Extends.refl (tree : FileTree) : tree.Extends tree :=
  ⟨rfl, fun _ _ h => h, fun _ _ h => h⟩

theorem Extends.trans (h : tree.Extends tree') (h' : tree'.Extends tree'') :
    tree.Extends tree'' :=
  ⟨h'.workingDir.trans h.workingDir,
    fun place entry hstored => h'.stored place entry (h.stored place entry hstored),
    fun place content hfile => h.file place content (h'.file place content hfile)⟩

theorem Extends.reaches (h : tree.Extends tree') : tree.Reaches tree' :=
  ⟨h.workingDir, fun place => h.stored place .directory⟩

/-- A file is found where it was. -/
theorem Extends.content? (h : tree.Extends tree') (hcontent : tree.content? path = some content) :
    tree'.content? path = some content := by
  obtain ⟨place, hlocate, hstored⟩ := content?_eq_some_iff.1 hcontent
  exact content?_eq_some_iff.2 ⟨place, h.reaches.locate hlocate, h.stored _ _ hstored⟩

/-- What is between two trees that agree on a file agrees with them. -/
theorem Extends.content?_eq (h : tree.Extends tree') (h' : tree'.Extends tree'')
    (heq : tree''.content? path = tree.content? path) :
    tree'.content? path = tree.content? path := by
  cases hcontent : tree'.content? path with
  | some content => exact ((h'.content? hcontent).symm.trans heq)
  | none =>
    cases hbefore : tree.content? path with
    | none => rfl
    | some content => exact absurd (hcontent.symm.trans (h.content? hbefore)) nofun

theorem extends_put (h : tree.stored? place = none) : tree.Extends (tree.put place .directory) := by
  have hplace : place ≠ [] := by
    rintro rfl
    cases h
  refine ⟨rfl, fun other found hstored => ?_, fun other content hfile => ?_⟩
  · have hne : other ≠ place := by
      rintro rfl
      cases h.symm.trans hstored
    rw [stored?_put_of_ne hne, hstored]
  · have hne : other ≠ place := by
      rintro rfl
      rw [stored?_put_self hplace] at hfile
      cases hfile
    rwa [stored?_put_of_ne hne] at hfile

/-- The directories that the first names lead through are among those that all do. -/
theorem extends_createDirsFrom_take (count : Nat) (tree : FileTree) (start : Location)
    (names : List String) : (tree.createDirsFrom start (names.take count)).1.Extends
      (tree.createDirsFrom start names).1 := by
  induction names generalizing tree start count with
  | nil =>
    rw [List.take_nil]
    exact .refl _
  | cons name rest ih =>
    cases count with
    | zero => exact extends_createDirsFrom tree start (name :: rest)
    | succ count =>
      rw [List.take_succ_cons, createDirsFrom, createDirsFrom]
      split
      · exact ih _ _ _
      · split
        · exact ih _ _ _
        · split
          · exact .refl _
          · rcases hstored : tree.stored? (start ++ [name]) with _ | _ | _ <;> simp only [hstored]
            · exact ih _ _ _
            · exact ih _ _ _
            · exact .refl _
where
  /-- Nothing else is done to a tree in which directories are made. -/
  extends_createDirsFrom (tree : FileTree) (start : Location) (names : List String) :
      tree.Extends (tree.createDirsFrom start names).1 := by
    induction names generalizing tree start with
    | nil => exact .refl _
    | cons name rest ih =>
      rw [createDirsFrom]
      split
      · exact ih _ _
      · split
        · exact ih _ _
        · split
          · exact .refl _
          · rcases hstored : tree.stored? (start ++ [name]) with _ | _ | _ <;> simp only [hstored]
            · exact (extends_put hstored).trans (ih _ _)
            · exact ih _ _
            · exact .refl _

/-! ## A file that is changed -/

/-- Two trees agree but for what a place holds, which is a directory in neither. -/
structure AltersAt (place : Location) (tree tree' : FileTree) : Prop where
  workingDir : tree'.workingDir = tree.workingDir
  stored : ∀ other, other ≠ place → tree'.stored? other = tree.stored? other
  before : tree.stored? place ≠ some .directory
  after : tree'.stored? place ≠ some .directory

namespace AltersAt

theorem symm (h : AltersAt place tree tree') : AltersAt place tree' tree :=
  ⟨h.workingDir.symm, fun other hother => (h.stored other hother).symm, h.after, h.before⟩

theorem trans (h : AltersAt place tree tree') (h' : AltersAt place tree' tree'') :
    AltersAt place tree tree'' :=
  ⟨h'.workingDir.trans h.workingDir,
    fun other hother => (h'.stored other hother).trans (h.stored other hother), h.before, h'.after⟩

theorem reaches (h : AltersAt place tree tree') : tree.Reaches tree' := by
  refine ⟨h.workingDir, fun other hother => ?_⟩
  have hne : other ≠ place := by
    rintro rfl
    exact h.before hother
  rw [h.stored other hne, hother]

theorem locate_iff (h : AltersAt place tree tree') {other : Location} :
    tree'.locate path = .ok other ↔ tree.locate path = .ok other :=
  ⟨h.symm.reaches.locate, h.reaches.locate⟩

/-- A path that does not lead to the place leads to the file that it led to. -/
theorem content?_eq (h : AltersAt place tree tree') (hne : tree.locate path ≠ .ok place) :
    tree'.content? path = tree.content? path := by
  have hstored : ∀ other, tree.locate path = .ok other →
      tree'.stored? other = tree.stored? other := by
    intro other hother
    refine h.stored other ?_
    rintro rfl
    exact hne hother
  ext content
  rw [content?_eq_some_iff, content?_eq_some_iff]
  constructor
  · rintro ⟨other, hlocate, hfile⟩
    rw [h.locate_iff] at hlocate
    exact ⟨other, hlocate, (hstored other hlocate).symm.trans hfile⟩
  · rintro ⟨other, hlocate, hfile⟩
    exact ⟨other, h.locate_iff.2 hlocate, (hstored other hlocate).trans hfile⟩

end AltersAt

theorem ne_nil_of_stored? (h : tree.stored? place ≠ some .directory) : place ≠ [] := by
  rintro rfl
  exact h rfl

theorem altersAt_put (h : tree.stored? place ≠ some .directory) (content : Content) :
    AltersAt place tree (tree.put place (.file content)) := by
  refine ⟨rfl, fun other hother => stored?_put_of_ne hother _ _, h, ?_⟩
  rw [stored?_put_self (ne_nil_of_stored? h)]
  nofun

theorem altersAt_remove (h : tree.stored? place ≠ some .directory) :
    AltersAt place tree (tree.remove place) := by
  refine ⟨rfl, fun other hother => stored?_remove_of_ne hother _, h, ?_⟩
  rw [stored?_remove_self (ne_nil_of_stored? h)]
  nofun

/-! ## What operations do to files -/

theorem create_ok (h : tree.create path = .ok tree') : ∃ place, tree.locate path = .ok place ∧
    AltersAt place tree tree' ∧ tree'.stored? place = some (.file (.text "")) := by
  cases hlocate : tree.locate path with
  | error e =>
    rw [create, hlocate] at h
    cases h
  | ok place =>
    have hnot : tree.stored? place ≠ some .directory := by
      intro hstored
      rw [create, hlocate] at h
      simp only [bind, Except.bind, hstored] at h
      cases h
    obtain rfl := Except.ok.inj ((create_eq hlocate hnot).symm.trans h)
    exact ⟨place, rfl, altersAt_put hnot _, stored?_put_self (ne_nil_of_stored? hnot) _ _⟩

/-- A text is written at the end of the file that a path leads to. -/
theorem write_ok {old text : String} (hlocate : tree.locate path = .ok place)
    (hstored : tree.stored? place = some (.file (.text old)))
    (h : tree.write path text = .ok tree') :
    AltersAt place tree tree' ∧ tree'.stored? place = some (.file (.text (old ++ text))) := by
  have hnot : tree.stored? place ≠ some .directory := by
    rw [hstored]
    nofun
  obtain rfl := Except.ok.inj ((write_eq hlocate hstored text).symm.trans h)
  exact ⟨altersAt_put hnot _, stored?_put_self (ne_nil_of_stored? hnot) _ _⟩

/-- A file that has been moved is at the other end. -/
theorem rename_ok {target : String} (h : tree.rename path target = .ok tree') :
    tree'.content? target = tree.content? path := by
  cases hsource : tree.locate path with
  | error e =>
    rw [rename, hsource] at h
    cases h
  | ok source =>
    cases htarget : tree.locate target with
    | error e =>
      rw [rename, hsource, htarget] at h
      cases h
    | ok place =>
      rw [rename, hsource, htarget] at h
      simp only [bind, Except.bind] at h
      split at h
      · next content hfile =>
        split at h
        · cases h
        · next hnot =>
          obtain rfl := Except.ok.inj h
          have hremove : AltersAt source tree (tree.remove source) :=
            altersAt_remove (by rw [hfile]; nofun)
          have hplace : (tree.remove source).stored? place ≠ some .directory := by
            by_cases heq : place = source
            · rw [heq]
              exact hremove.after
            · rw [hremove.stored place heq]
              exact hnot
          have hput := altersAt_put hplace content
          have hreaches := hput.reaches.locate (hremove.reaches.locate htarget)
          rw [content?_eq_some_iff.2 ⟨source, hsource, hfile⟩, content?_eq_some_iff]
          exact ⟨place, hreaches, stored?_put_self (ne_nil_of_stored? hplace) _ _⟩
      · cases h
      · cases h

end Converge.FileTree
