import Converge.Proofs.Backing
import Converge.Proofs.TreePaths
/-!
# Writing to a disk with a fault

An operation of a disk may fail after it has been done in part: after some of the directories have
been made, or some of the characters written.  Main statement: whatever operation fails, a call on a
store that succeeds leaves the whole changed document in the store's file, and one that fails leaves
the file as it was, just if making the directories of the path brings no file to the end of it and
the file that is written first is another one (`Write.intact_iff`).
-/

namespace Converge

open Converge.Membership (Document FileStore)

/-! ## Faults -/

/-- An operation that fails. -/
inductive DiskFault where
  | read
  /-- After the directories have been made that so many names of the path lead through. -/
  | createDirs (count : Nat)
  | create
  /-- After so many characters of the text. -/
  | write (count : Nat)
  | sync
  | rename

namespace FileTree

/-- Makes the directories that the first names of a path lead through. -/
def createFirstDirs (tree : FileTree) (path : String) (count : Nat) : FileTree :=
  if path.utf8ByteSize > maxPathSize then tree
  else if '\x00' ∈ path.toList then tree
  else (tree.createDirsFrom (tree.startOf path) ((names path).take count)).1

theorem extends_createDirs (tree : FileTree) (path : String) :
    tree.Extends (tree.createDirs path).1 := by
  rw [createDirs]
  split
  · exact .refl tree
  · split
    · exact .refl tree
    · exact extends_createDirsFrom_take 0 tree (tree.startOf path) (names path)

theorem extends_createFirstDirs (tree : FileTree) (path : String) (count : Nat) :
    tree.Extends (tree.createFirstDirs path count) := by
  rw [createFirstDirs]
  split
  · exact .refl tree
  · split
    · exact .refl tree
    · exact extends_createDirsFrom_take 0 tree (tree.startOf path) _

theorem createFirstDirs_extends (tree : FileTree) (path : String) (count : Nat) :
    (tree.createFirstDirs path count).Extends (tree.createDirs path).1 := by
  rw [createFirstDirs, createDirs]
  split
  · exact .refl tree
  · split
    · exact .refl tree
    · exact extends_createDirsFrom_take count tree (tree.startOf path) (names path)

/-- Writes the first characters of a text, if that can be done. -/
def writeFirst (tree : FileTree) (path text : String) (count : Nat) : FileTree :=
  (commit (·.write path (String.ofList (text.toList.take count))) tree).1

theorem writeFirst_spec {tree : FileTree} {path : String} {place : Location} {old : String}
    (hlocate : tree.locate path = .ok place)
    (hstored : tree.stored? place = some (.file (.text old)))
    (text : String) (count : Nat) : AltersAt place tree (tree.writeFirst path text count) ∧
      (tree.writeFirst path text count).stored? place =
        some (.file (.text (old ++ String.ofList (text.toList.take count)))) := by
  have hwrite := write_eq hlocate hstored (String.ofList (text.toList.take count))
  have hspec := write_ok hlocate hstored hwrite
  rwa [writeFirst, commit, hwrite]

end FileTree

namespace Membership.FileStore

/-- An operation that fails, and what it leaves. -/
def failing {α : Type} (leave : FileTree → FileTree) : ExceptT DiskError (StateM FileTree) α :=
  fun tree => (.error (.other "Input/output error (os error 5)"), leave tree)

/-- The disk that is a tree and may have a fault. -/
def faultyDisk (fault : Option DiskFault) : Disk (StateM FileTree) where
  isPresent := treeDisk.isPresent
  read path := match fault with
    | some .read => failing id
    | _ => treeDisk.read path
  createDirs path := match fault with
    | some (.createDirs count) => failing (·.createFirstDirs path count)
    | _ => treeDisk.createDirs path
  create path := match fault with
    | some .create => failing id
    | _ => treeDisk.create path
  write path text := match fault with
    | some (.write count) => failing (·.writeFirst path text count)
    | _ => treeDisk.write path text
  sync path := match fault with
    | some .sync => failing id
    | _ => treeDisk.sync path
  rename path target := match fault with
    | some .rename => failing id
    | _ => treeDisk.rename path target

example : faultyDisk none = treeDisk := rfl

section

variable {fault : Option DiskFault} {store : FileStore} {doc : Document} {path text : String}
  {tree tree' : FileTree}

/-! ## Operations -/

theorem exec_commit_cases (operation : FileTree → Except DiskError FileTree)
    {result : Except DiskError Unit}
    (h : Disk.exec (FileTree.within id (fun tree _ => tree) (FileTree.commit operation)) tree =
      (result, tree')) :
    (∃ e, result = .error e ∧ tree' = tree) ∨ result = .ok ⟨⟩ ∧ operation tree = .ok tree' := by
  have hcommit : ((FileTree.commit operation tree).2, (FileTree.commit operation tree).1) =
      (result, tree') := h
  rw [FileTree.commit] at hcommit
  cases hrun : operation tree with
  | error e =>
    rw [hrun] at hcommit
    cases hcommit
    exact .inl ⟨e, rfl, rfl⟩
  | ok next =>
    rw [hrun] at hcommit
    cases hcommit
    exact .inr ⟨rfl, rfl⟩

/-- Making directories fails with some of them made, or makes them all. -/
theorem exec_createDirs_cases {result : Except DiskError Unit}
    (h : Disk.exec ((faultyDisk fault).createDirs path) tree = (result, tree')) :
    (∃ e, result = .error e ∧ tree.Extends tree' ∧ tree'.Extends (tree.createDirs path).1) ∨
      result = .ok ⟨⟩ ∧ tree.createDirs path = (tree', .ok ⟨⟩) := by
  simp only [faultyDisk] at h
  split at h
  · next count =>
    cases h
    exact .inl ⟨_, rfl, FileTree.extends_createFirstDirs tree path count,
      FileTree.createFirstDirs_extends tree path count⟩
  · have hrun : ((tree.createDirs path).2, (tree.createDirs path).1) = (result, tree') := h
    obtain ⟨rfl, rfl⟩ := Prod.mk.inj hrun
    cases hresult : (tree.createDirs path).2 with
    | error e => exact .inl ⟨e, rfl, FileTree.extends_createDirs tree path, .refl _⟩
    | ok _ => exact .inr ⟨rfl, Prod.ext rfl hresult⟩

theorem exec_create_cases {result : Except DiskError Unit}
    (h : Disk.exec ((faultyDisk fault).create path) tree = (result, tree')) :
    (∃ e, result = .error e ∧ tree' = tree) ∨
      result = .ok ⟨⟩ ∧ tree.create path = .ok tree' := by
  simp only [faultyDisk] at h
  split at h
  · cases h
    exact .inl ⟨_, rfl, rfl⟩
  · exact exec_commit_cases (·.create path) h

/-- A write alters nothing but the file, and appends the whole text if it succeeds. -/
theorem exec_write_cases {place : Location} {old : String} {result : Except DiskError Unit}
    (hlocate : tree.locate path = .ok place)
    (hstored : tree.stored? place = some (.file (.text old)))
    (h : Disk.exec ((faultyDisk fault).write path text) tree = (result, tree')) :
    FileTree.AltersAt place tree tree' ∧
      (result = .ok ⟨⟩ → tree'.stored? place = some (.file (.text (old ++ text)))) := by
  simp only [faultyDisk] at h
  split at h
  · next count =>
    cases h
    exact ⟨(FileTree.writeFirst_spec hlocate hstored text count).1, nofun⟩
  · have hwrite := FileTree.write_eq hlocate hstored text
    have hrun : Disk.exec (treeDisk.write path text) tree = _ :=
      exec_commit id (fun tree _ => tree) (·.write path text) hwrite
    cases hrun.symm.trans h
    exact (FileTree.write_ok hlocate hstored hwrite).imp_right fun hdone _ => hdone

theorem exec_sync {result : Except DiskError Unit}
    (h : Disk.exec ((faultyDisk fault).sync path) tree = (result, tree')) : tree' = tree := by
  simp only [faultyDisk] at h
  split at h
  · cases h
    rfl
  · exact (congrArg Prod.snd h).symm

theorem exec_rename_cases {target : String} {result : Except DiskError Unit}
    (h : Disk.exec ((faultyDisk fault).rename path target) tree = (result, tree')) :
    (∃ e, result = .error e ∧ tree' = tree) ∨
      result = .ok ⟨⟩ ∧ tree.rename path target = .ok tree' := by
  simp only [faultyDisk] at h
  split at h
  · cases h
    exact .inl ⟨_, rfl, rfl⟩
  · exact exec_commit_cases (·.rename path target) h

/-! ## Loading -/

theorem exec_read (fault : Option DiskFault) (path : String) (tree : FileTree) :
    ∃ content, Disk.exec ((faultyDisk fault).read path) tree = (content, tree) ∧
      (content = tree.read path ∨ ∃ e, content = .error e) := by
  unfold faultyDisk
  dsimp only
  split
  · exact ⟨_, rfl, .inr ⟨_, rfl⟩⟩
  · exact ⟨_, rfl, .inl rfl⟩

theorem exec_load_treeDisk (store : FileStore) (tree : FileTree) : exec (store.load treeDisk) tree =
    (loaded (tree.isPresent store.path) (tree.read store.path), tree) :=
  exec_load_of_answers rfl fun _ => rfl

theorem tree_of_exec_load {result : Except Error Document}
    (h : exec (store.load treeDisk) tree = (result, tree')) : tree' = tree :=
  (congrArg Prod.snd ((exec_load_treeDisk store tree).symm.trans h)).symm

/-- Loading leaves the tree as it is, and what is loaded is what is there. -/
theorem exec_load_faultyDisk {result : Except Error Document}
    (h : exec (store.load (faultyDisk fault)) tree = (result, tree')) :
    tree' = tree ∧ ∀ doc, result = .ok doc → exec (store.load treeDisk) tree = (.ok doc, tree) := by
  obtain ⟨content, hread, hcontent⟩ := exec_read fault store.path tree
  have hload : exec (store.load (faultyDisk fault)) tree =
      (loaded (tree.isPresent store.path) content, tree) :=
    exec_load_of_answers rfl fun _ => hread
  obtain ⟨hresult, htree⟩ := Prod.mk.inj (hload.symm.trans h)
  refine ⟨htree.symm, fun doc hdoc => ?_⟩
  rw [exec_load_treeDisk, ← hdoc, ← hresult]
  obtain rfl | ⟨e, rfl⟩ := hcontent
  · rfl
  · rw [← hresult] at hdoc
    cases hpresent : tree.isPresent store.path with
    | false => rfl
    | true =>
      rw [hpresent] at hdoc
      cases hdoc

theorem kind_of_exec_load {e : Error}
    (h : exec (store.load (faultyDisk fault)) tree = (.error e, tree')) : e.kind = .store := by
  obtain ⟨content, hread, -⟩ := exec_read fault store.path tree
  have hload : exec (store.load (faultyDisk fault)) tree =
      (loaded (tree.isPresent store.path) content, tree) :=
    exec_load_of_answers rfl fun _ => hread
  exact kind_of_loaded (congrArg Prod.fst (hload.symm.trans h))

theorem exec_load_of_content {content : Content} (h : tree.content? store.path = some content) :
    exec (store.load treeDisk) tree = (Document.ofContent (some content), tree) := by
  obtain ⟨place, hlocate, hstored⟩ := FileTree.content?_eq_some_iff.1 h
  have hpresent : tree.isPresent store.path = true := by
    rw [FileTree.isPresent, hlocate]
    exact (congrArg Option.isSome hstored :)
  rw [exec_load_treeDisk, hpresent, FileTree.read_eq hlocate hstored]
  rfl

/-- A document that is loaded is the one in the store's file. -/
theorem ofContent_of_exec_load (h : exec (store.load treeDisk) tree = (.ok doc, tree')) :
    Document.ofContent (tree.content? store.path) = .ok doc := by
  cases hcontent : tree.content? store.path with
  | some content =>
    rw [exec_load_of_content hcontent] at h
    exact congrArg Prod.fst h
  | none =>
    rw [exec_load_treeDisk] at h
    have hloaded : loaded (tree.isPresent store.path) (tree.read store.path) = .ok doc :=
      congrArg Prod.fst h
    cases hread : tree.read store.path with
    | ok content =>
      rw [FileTree.content?, hread] at hcontent
      cases hcontent
    | error e =>
      rw [hread] at hloaded
      cases hpresent : tree.isPresent store.path with
      | false =>
        rw [hpresent] at hloaded
        exact hloaded
      | true =>
        rw [hpresent] at hloaded
        cases hloaded

/-! ## Saving -/

/-- The tree in which the directories of a store's path have been made, as far as they can be. -/
def furnish (store : FileStore) (tree : FileTree) : FileTree × Except DiskError Unit :=
  match store.directory? with
  | some directory => tree.createDirs directory
  | none => (tree, .ok ⟨⟩)

theorem extends_furnish (store : FileStore) (tree : FileTree) :
    tree.Extends (store.furnish tree).1 := by
  unfold furnish
  split
  · exact FileTree.extends_createDirs tree _
  · exact .refl tree

/-- Making the directories of a store's path brings no file to the end of it, and what is written
first is not the store's file. -/
structure Guarded (store : FileStore) (tree : FileTree) : Prop where
  content : (store.furnish tree).1.content? store.path = tree.content? store.path
  apart : (store.furnish tree).2 = .ok ⟨⟩ → ∀ place,
    (store.furnish tree).1.locate store.path = .ok place →
    (store.furnish tree).1.locate store.temporaryPath = .ok place →
    (store.furnish tree).1.stored? place = some .directory

-- the temporary file of this store is the store's file
example : (⟨"/cluster.tmp"⟩ : FileStore).temporaryPath = "/cluster.tmp" := by decide +kernel

theorem exec_save_cases {result : Except Error Unit}
    (h : exec (store.save (faultyDisk fault) doc) tree = (result, tree')) :
    (∃ e, result = .error e ∧ tree.Extends tree' ∧ tree'.Extends (store.furnish tree).1) ∨
      (store.furnish tree).2 = .ok ⟨⟩ ∧
        exec (store.replace (faultyDisk fault) doc) (store.furnish tree).1 = (result, tree') := by
  cases hdirectory : store.directory? with
  | none =>
    rw [save_of_none hdirectory] at h
    rw [furnish, hdirectory]
    exact .inr ⟨rfl, h⟩
  | some directory =>
    rw [save_of_some hdirectory] at h
    rw [show store.furnish tree = tree.createDirs directory by rw [furnish, hdirectory]]
    obtain ⟨e, hcreate, rfl⟩ | ⟨⟨⟩, tree₁, hcreate, hrest⟩ := exec_bind_cases h
    · obtain ⟨cause, hrun, hdone⟩ | ⟨_, -, hdone⟩ := exec_attempt_cases hcreate
      · obtain ⟨-, -, hextends⟩ | ⟨hok, -⟩ := exec_createDirs_cases hrun
        · exact .inl ⟨e, rfl, hextends⟩
        · cases hok
      · cases hdone
    · obtain ⟨cause, -, hdone⟩ | ⟨_, hrun, -⟩ := exec_attempt_cases hcreate
      · cases hdone
      · obtain ⟨e, he, -⟩ | ⟨-, hdone⟩ := exec_createDirs_cases hrun
        · cases he
        · rw [hdone]
          exact .inr ⟨rfl, hrest⟩

/-- Only the file at the end of the temporary path is altered, and in the end it holds the
document. -/
theorem exec_writeTemporary_cases {result : Except Error Unit}
    (h : exec (store.writeTemporary (faultyDisk fault) doc) tree = (result, tree')) :
    (∃ e, result = .error e ∧ tree' = tree) ∨
      ∃ place, tree.locate store.temporaryPath = .ok place ∧ FileTree.AltersAt place tree tree' ∧
        (result = .ok ⟨⟩ → tree'.content? store.temporaryPath = some (.text doc.text)) := by
  rcases hrun : Disk.exec (store.fill (faultyDisk fault) doc) tree with ⟨done, left⟩
  obtain ⟨rfl, rfl⟩ := Prod.mk.inj ((exec_writeTemporary_of_fill hrun).symm.trans h)
  obtain ⟨e, hcreate, rfl⟩ | ⟨_, tree₁, hcreate, hrest⟩ := Disk.exec_bind_cases hrun
  · obtain ⟨-, -, rfl⟩ | ⟨he, -⟩ := exec_create_cases hcreate
    · exact .inl ⟨_, rfl, rfl⟩
    · cases he
  obtain ⟨_, he, -⟩ | ⟨-, hcreated⟩ := exec_create_cases hcreate
  · cases he
  obtain ⟨place, hlocate, halters₁, hempty⟩ := FileTree.create_ok hcreated
  have hlocate₁ := halters₁.reaches.locate hlocate
  refine .inr ⟨place, hlocate, ?_⟩
  obtain ⟨e, hwrite, rfl⟩ | ⟨⟨⟩, tree₂, hwrite, hsync⟩ := Disk.exec_bind_cases hrest
  · exact ⟨halters₁.trans (exec_write_cases hlocate₁ hempty hwrite).1, nofun⟩
  · obtain ⟨halters₂, hwritten⟩ := exec_write_cases hlocate₁ hempty hwrite
    obtain rfl := exec_sync hsync
    refine ⟨halters₁.trans halters₂, fun _ => FileTree.content?_eq_some_iff.2
      ⟨place, halters₂.reaches.locate hlocate₁, ?_⟩⟩
    rw [hwritten rfl, String.empty_append]

/-- What is left when the temporary file has been written but not moved, and when it has. -/
theorem exec_replace_cases {result : Except Error Unit}
    (h : exec (store.replace (faultyDisk fault) doc) tree = (result, tree')) :
    (∃ e, result = .error e) ∧ (tree' = tree ∨ ∃ place,
        tree.locate store.temporaryPath = .ok place ∧ FileTree.AltersAt place tree tree') ∨
      result = .ok ⟨⟩ ∧ tree'.content? store.path = some (.text doc.text) := by
  obtain ⟨e, hwrite, rfl⟩ | ⟨⟨⟩, tree₁, hwrite, hrest⟩ := exec_bind_cases h
  · obtain ⟨-, -, htree⟩ | ⟨place, hlocate, halters, -⟩ := exec_writeTemporary_cases hwrite
    · exact .inl ⟨⟨e, rfl⟩, .inl htree⟩
    · exact .inl ⟨⟨e, rfl⟩, .inr ⟨place, hlocate, halters⟩⟩
  · obtain ⟨_, he, -⟩ | ⟨place, hlocate, halters, hcontent⟩ := exec_writeTemporary_cases hwrite
    · cases he
    obtain ⟨e, hrename, rfl⟩ | ⟨⟨⟩, hrename, rfl⟩ := exec_attempt_cases hrest
    · obtain ⟨-, -, rfl⟩ | ⟨he, -⟩ := exec_rename_cases hrename
      · exact .inl ⟨⟨_, rfl⟩, .inr ⟨place, hlocate, halters⟩⟩
      · cases he
    · obtain ⟨_, he, -⟩ | ⟨-, hmoved⟩ := exec_rename_cases hrename
      · cases he
      · exact .inr ⟨rfl, (FileTree.rename_ok hmoved).trans (hcontent rfl)⟩

/-- A document that has been saved is in the store's file. -/
theorem content?_of_exec_save
    (h : exec (store.save (faultyDisk fault) doc) tree = (.ok ⟨⟩, tree')) :
    tree'.content? store.path = some (.text doc.text) := by
  obtain ⟨e, he, -⟩ | ⟨-, hreplace⟩ := exec_save_cases h
  · cases he
  · obtain ⟨⟨e, he⟩, -⟩ | ⟨-, hcontent⟩ := exec_replace_cases hreplace
    · cases he
    · exact hcontent

/-- A guarded store whose document cannot be saved holds what it held. -/
theorem Guarded.content?_eq (guarded : store.Guarded tree) {e : Error}
    (h : exec (store.save (faultyDisk fault) doc) tree = (.error e, tree')) :
    tree'.content? store.path = tree.content? store.path := by
  obtain ⟨-, -, hbefore, hafter⟩ | ⟨hfurnished, hreplace⟩ := exec_save_cases h
  · exact hbefore.content?_eq hafter guarded.content
  · obtain ⟨-, rfl | ⟨place, hlocate, halters⟩⟩ | ⟨he, -⟩ := exec_replace_cases hreplace
    · exact guarded.content
    · refine (halters.content?_eq fun hplace => ?_).trans guarded.content
      exact halters.before (guarded.apart hfurnished place hplace hlocate)
    · cases he

/-! ### Faults that show -/

/-- A fault that is not in the making of directories comes after it. -/
theorem exec_save_eq (fault : Option DiskFault)
    (hfault : ∀ path, (faultyDisk fault).createDirs path = treeDisk.createDirs path)
    (store : FileStore) (doc : Document) (tree : FileTree) :
    ((store.furnish tree).2 ≠ .ok ⟨⟩ ∧
        ∃ e, exec (store.save (faultyDisk fault) doc) tree = (.error e, (store.furnish tree).1)) ∨
      (store.furnish tree).2 = .ok ⟨⟩ ∧ exec (store.save (faultyDisk fault) doc) tree =
        exec (store.replace (faultyDisk fault) doc) (store.furnish tree).1 := by
  unfold furnish
  cases hdirectory : store.directory? with
  | none =>
    rw [save_of_none hdirectory]
    exact .inr ⟨rfl, rfl⟩
  | some directory =>
    have hrun : Disk.exec ((faultyDisk fault).createDirs directory) tree =
        ((tree.createDirs directory).2, (tree.createDirs directory).1) := by
      rw [hfault]
      rfl
    rw [save_of_some hdirectory]
    cases hresult : (tree.createDirs directory).2 with
    | error e =>
      rw [hresult] at hrun
      exact .inl ⟨nofun, _, exec_bind_error (exec_attempt _ hrun) _⟩
    | ok _ =>
      rw [hresult] at hrun
      exact .inr ⟨rfl, exec_bind_ok (exec_attempt _ hrun) _⟩

/-- When the temporary file cannot be made, only directories have been. -/
theorem exec_save_of_create_error {cause : DiskError}
    (hfault : ∀ path, (faultyDisk fault).createDirs path = treeDisk.createDirs path)
    (h : Disk.exec ((faultyDisk fault).create store.temporaryPath) (store.furnish tree).1 =
      (.error cause, (store.furnish tree).1)) (doc : Document) :
    ∃ e, exec (store.save (faultyDisk fault) doc) tree = (.error e, (store.furnish tree).1) := by
  obtain ⟨-, hsave⟩ | ⟨-, hsave⟩ := exec_save_eq fault hfault store doc tree
  · exact hsave
  · have hfill : Disk.exec (store.fill (faultyDisk fault) doc) (store.furnish tree).1 = _ :=
      Disk.exec_bind_error h _
    exact ⟨_, hsave.trans (exec_bind_error (exec_writeTemporary_of_fill hfill) _)⟩

/-- When nothing can be written, the temporary file is left empty. -/
theorem exec_save_write {place : Location} (hfurnished : (store.furnish tree).2 = .ok ⟨⟩)
    (hlocate : (store.furnish tree).1.locate store.temporaryPath = .ok place)
    (hnot : (store.furnish tree).1.stored? place ≠ some .directory) (doc : Document) :
    ∃ e tree', exec (store.save (faultyDisk (some (.write 0))) doc) tree = (.error e, tree') ∧
      FileTree.AltersAt place (store.furnish tree).1 tree' ∧
      tree'.stored? place = some (.file (.text "")) := by
  obtain ⟨hfailed, -⟩ | ⟨-, hsave⟩ :=
    exec_save_eq (some (.write 0)) (fun _ => rfl) store doc tree
  · exact absurd hfurnished hfailed
  have hcreate := FileTree.create_eq hlocate hnot
  have halters := FileTree.altersAt_put hnot (.text "")
  have hempty := FileTree.stored?_put_self (FileTree.ne_nil_of_stored? hnot)
    (store.furnish tree).1 (.file (.text ""))
  have hcreated : Disk.exec ((faultyDisk (some (.write 0))).create store.temporaryPath)
      (store.furnish tree).1 = _ :=
    exec_commit id (fun tree _ => tree) (·.create store.temporaryPath) hcreate
  obtain ⟨hwritten, hleft⟩ :=
    FileTree.writeFirst_spec (halters.reaches.locate hlocate) hempty doc.text 0
  have hfill :
      Disk.exec (store.fill (faultyDisk (some (.write 0))) doc) (store.furnish tree).1 = _ :=
    (Disk.exec_bind_ok hcreated _).trans (Disk.exec_bind_error rfl _)
  exact ⟨_, _, hsave.trans (exec_bind_error (exec_writeTemporary_of_fill hfill) _),
    halters.trans hwritten, hleft⟩

/-- A store is guarded if no fault changes what it holds. -/
theorem guarded_of_intact (doc : Document) (hempty : tree.content? store.path ≠ some (.text ""))
    (h : ∀ fault, (∀ path, (faultyDisk fault).read path = treeDisk.read path) → ∀ e tree',
      exec (store.save (faultyDisk fault) doc) tree = (.error e, tree') →
      tree'.content? store.path = tree.content? store.path) : store.Guarded tree where
  content := by
    obtain ⟨e, hrun⟩ :=
      @exec_save_of_create_error (some .create) store tree _ (fun _ => rfl) rfl doc
    exact h _ (fun _ => rfl) _ _ hrun
  apart hfurnished place hpath htemporary := by
    by_contra hnot
    obtain ⟨e, tree', hrun, halters, hleft⟩ := exec_save_write hfurnished htemporary hnot doc
    have hcontent : tree'.content? store.path = some (.text "") :=
      FileTree.content?_eq_some_iff.2 ⟨place, halters.reaches.locate hpath, hleft⟩
    exact hempty ((h _ (fun _ => rfl) _ _ hrun).symm.trans hcontent)

end

end Membership.FileStore

/-! ## Calls that change a store -/

namespace Membership

/-- A call that changes a membership store. -/
inductive Write where
  | register (node : Node)
  | remove (name : String)
  | record (key : String) (value : Record)

namespace Write

/-- The call on a store. -/
def run {m : Type → Type} [Monad m] (store : FileStore) (disk : Disk m) :
    Write → ExceptT Error m Unit
  | .register node => store.addNode disk node
  | .remove name => store.removeNode disk name
  | .record key value => (store.toStore disk).setRecord key value

/-- What the call makes of the document. -/
def apply : Write → Document → Document
  | .register node => Document.addNode node
  | .remove name => Document.dropNode name
  | .record key value => Document.setRecord key value

/-- A node can only be taken out if it is there. -/
def Applies : Write → Document → Prop
  | .remove name, doc => doc.hasNode name
  | _, _ => True

variable {σ : Type} {store : FileStore} {disk : Disk (StateM σ)} {s s' s₁ : σ} {doc : Document}
  {write : Write}

/-- A call that applies to the document that was loaded saves what it makes of it. -/
theorem exec_run (hload : exec (store.load disk) s = (.ok doc, s₁)) (happlies : write.Applies doc) :
    exec (write.run store disk) s = exec (store.save disk (write.apply doc)) s₁ := by
  cases write with
  | register node => exact exec_bind_ok hload _
  | record key value => exact exec_bind_ok hload _
  | remove name =>
    refine (exec_bind_ok hload _).trans ?_
    rw [if_pos (show doc.hasNode name = true from happlies)]
    rfl

/-- A call fails to load, or its change is saved, or there is no node to take out. -/
theorem exec_run_cases {result : Except Error Unit}
    (h : exec (write.run store disk) s = (result, s')) :
    (∃ e, result = .error e ∧ exec (store.load disk) s = (.error e, s')) ∨
      ∃ doc s₁, exec (store.load disk) s = (.ok doc, s₁) ∧
        (write.Applies doc ∧ exec (store.save disk (write.apply doc)) s₁ = (result, s') ∨
          ¬ write.Applies doc ∧ (∃ e, result = .error e) ∧ s' = s₁) := by
  rcases hload : exec (store.load disk) s with ⟨e | doc, s₁⟩
  · refine .inl ⟨e, ?_⟩
    have hrun : exec (write.run store disk) s = (.error e, s₁) := by
      cases write <;> exact exec_bind_error hload _
    cases hrun.symm.trans h
    exact ⟨rfl, rfl⟩
  · refine .inr ⟨doc, s₁, rfl, ?_⟩
    by_cases happlies : write.Applies doc
    · exact .inl ⟨happlies, (exec_run hload happlies).symm.trans h⟩
    · refine .inr ⟨happlies, ?_⟩
      cases write with
      | register node => exact absurd trivial happlies
      | record key value => exact absurd trivial happlies
      | remove name =>
        have hrun := (exec_bind_ok hload _).symm.trans h
        rw [if_neg (show ¬ doc.hasNode name = true from happlies)] at hrun
        cases hrun
        exact ⟨⟨_, rfl⟩, rfl⟩

/-! ### Calls on a disk with a fault -/

section

open FileStore (faultyDisk treeDisk)

variable {fault : Option DiskFault} {tree tree' : FileTree}

/-- A call that succeeds leaves the whole changed document in the store's file. -/
theorem content?_of_exec_run
    (h : exec (write.run store (faultyDisk fault)) tree = (.ok ⟨⟩, tree')) :
    ∃ doc, exec (store.load treeDisk) tree = (.ok doc, tree) ∧ write.Applies doc ∧
      tree'.content? store.path = some (.text (write.apply doc).text) := by
  obtain ⟨_, he, -⟩ | ⟨doc, tree₁, hload, hrest⟩ := exec_run_cases h
  · cases he
  · obtain ⟨rfl, hloads⟩ := FileStore.exec_load_faultyDisk hload
    obtain ⟨happlies, hsave⟩ | ⟨-, ⟨_, he⟩, -⟩ := hrest
    · exact ⟨doc, hloads doc rfl, happlies, FileStore.content?_of_exec_save hsave⟩
    · cases he

/-- A call that fails leaves the file as it was, if the store is guarded when there is something to
save. -/
theorem content?_of_exec_run_error {e : Error}
    (hguarded : ∀ doc, exec (store.load treeDisk) tree = (.ok doc, tree) → write.Applies doc →
      store.Guarded tree)
    (h : exec (write.run store (faultyDisk fault)) tree = (.error e, tree')) :
    tree'.content? store.path = tree.content? store.path := by
  obtain ⟨_, -, hload⟩ | ⟨doc, tree₁, hload, hrest⟩ := exec_run_cases h
  · rw [(FileStore.exec_load_faultyDisk hload).1]
  · obtain ⟨rfl, hloads⟩ := FileStore.exec_load_faultyDisk hload
    obtain ⟨happlies, hsave⟩ | ⟨-, -, rfl⟩ := hrest
    · exact (hguarded doc (hloads doc rfl) happlies).content?_eq hsave
    · rfl

/-- A store is guarded if no call that has something to save changes its file when it fails. -/
theorem guarded_of_exec_run (hload : exec (store.load treeDisk) tree = (.ok doc, tree))
    (happlies : write.Applies doc)
    (hintact : ∀ fault e tree', exec (write.run store (faultyDisk fault)) tree = (.error e, tree') →
      tree'.content? store.path = tree.content? store.path) : store.Guarded tree := by
  have hempty : tree.content? store.path ≠ some (.text "") := by
    intro hcontent
    have hdoc := FileStore.ofContent_of_exec_load hload
    rw [hcontent] at hdoc
    cases hdoc
  refine FileStore.guarded_of_intact (write.apply doc) hempty fun fault hread e tree' hsave => ?_
  have hloads : exec (store.load (faultyDisk fault)) tree = (.ok doc, tree) := by
    rw [← hload, FileStore.exec_load_treeDisk]
    exact FileStore.exec_load_of_answers rfl fun _ => by
      rw [hread]
      rfl
  exact hintact fault e tree' ((exec_run hloads happlies).trans hsave)

/-- Whatever operation of the disk fails, a call that succeeds leaves the whole changed document in
the store's file; and all calls that fail leave the file as it was, just if the store is guarded
when the call has something to save. -/
theorem intact_iff (store : FileStore) (tree : FileTree) (write : Write) :
    (∀ fault tree', exec (write.run store (faultyDisk fault)) tree = (.ok ⟨⟩, tree') →
      ∃ doc, exec (store.load treeDisk) tree = (.ok doc, tree) ∧ write.Applies doc ∧
        tree'.content? store.path = some (.text (write.apply doc).text)) ∧
    ((∀ fault e tree', exec (write.run store (faultyDisk fault)) tree = (.error e, tree') →
      tree'.content? store.path = tree.content? store.path) ↔
    ∀ doc, exec (store.load treeDisk) tree = (.ok doc, tree) → write.Applies doc →
      store.Guarded tree) :=
  ⟨fun _ _ => content?_of_exec_run,
    fun hintact _ hload happlies => guarded_of_exec_run hload happlies hintact,
    fun hguarded _ _ _ => content?_of_exec_run_error hguarded⟩

end

end Write

/-! ### Stores that are not guarded -/

namespace FileStore

/-- A document with one node. -/
def oneNodeText : String :=
  "\x7b\"nodes\":[\x7b\"name\":\"n1\",\"machineid\":\"1\"\x7d],\"config\":\x7b\x7d\x7d"

/-- A store whose path leads through a directory and out of it again. -/
def detour : FileStore :=
  ⟨"/missing/../cluster.json"⟩

theorem furnish_detour {tree : FileTree} (h : tree.stored? ["missing"] = none) :
    detour.furnish tree = (tree.put ["missing"] .directory, .ok ⟨⟩) := by
  have hdirectory : detour.directory? = some "/missing/.." := by decide +kernel
  have hnames : FileTree.names "/missing/.." = ["", "missing", ".."] := rfl
  rw [furnish, hdirectory]
  show tree.createDirsFrom [] (FileTree.names "/missing/..") = _
  rw [hnames]
  have hsize : ¬ "missing".utf8ByteSize > FileTree.maxNameSize := by decide
  simp [FileTree.createDirsFrom, h, hsize]
  rfl

/-- A file in the root and a directory where its temporary file would be. -/
def detourTree : FileTree :=
  ⟨[(["cluster.json"], .file (.text oneNodeText)), (["cluster.tmp"], .directory)], []⟩

/-- Nothing can be saved because the temporary path is a directory; but the way to the store's file,
which there was none before, has been made. -/
theorem exec_save_detour (doc : Document) :
    ∃ e tree', exec (detour.save treeDisk doc) detourTree = (.error e, tree') ∧
      tree'.content? detour.path = some (.text oneNodeText) := by
  have htemporary : detour.temporaryPath = "/missing/../cluster.tmp" := by decide +kernel
  have hfurnish : detour.furnish detourTree = (detourTree.put ["missing"] .directory, .ok ⟨⟩) :=
    furnish_detour rfl
  have hcreate : Disk.exec (treeDisk.create detour.temporaryPath) (detour.furnish detourTree).1 =
      (.error .isDirectory, (detour.furnish detourTree).1) := by
    rw [hfurnish, htemporary]
    rfl
  obtain ⟨e, hsave⟩ :=
    @exec_save_of_create_error none detour detourTree _ (fun _ => rfl) hcreate doc
  refine ⟨e, _, hsave, ?_⟩
  rw [hfurnish]
  rfl

/-- A node cannot be added, but the call has brought a file to the end of the store's path. -/
theorem not_intact_detour :
    let tree : FileTree :=
      ⟨[(["cluster.json"], .file (.text oneNodeText)), (["cluster.tmp"], .directory)], []⟩
    ∃ e tree', exec ((Write.register ⟨"n2", "2"⟩).run detour treeDisk) tree = (.error e, tree') ∧
      tree.content? detour.path = none ∧ tree'.content? detour.path = some (.text oneNodeText) := by
  have hload : exec (detour.load treeDisk) detourTree = (.ok .empty, detourTree) := rfl
  have happlies : (Write.register ⟨"n2", "2"⟩).Applies .empty := trivial
  obtain ⟨e, tree', hsave, hcontent⟩ :=
    exec_save_detour ((Write.register ⟨"n2", "2"⟩).apply .empty)
  exact ⟨e, tree', (Write.exec_run hload happlies).trans hsave, rfl, hcontent⟩

end FileStore

end Membership

end Converge
