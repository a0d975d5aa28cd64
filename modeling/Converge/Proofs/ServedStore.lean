import Converge.Proofs.PlainPath
/-!
# Stores at any path

A membership store that serves a file either fails with nothing done, or does what the store in the
file does on a disk with some fault.  Main statements: the answers of such a store come from the
file, wherever that is (`Serves.reflects`), and a replacement of a record that fails leaves the file
as it was unless the file is exposed (`Serves.file_eq_or_exposed`), which no file at a plain path is
(`Plain.not_exposed`).
-/

namespace Converge

open Converge.Membership (Document FileStore Write)

variable {σ α β : Type}

/-! ## Trees within states -/

section

variable {ε : Type} {get : σ → FileTree}

/-- An action does to the tree within a state what another one does to a tree alone. -/
def FileTree.Mirrors (get : σ → FileTree) (action : ExceptT ε (StateM σ) α)
    (alone : ExceptT ε (StateM FileTree) α) : Prop :=
  ∀ s, alone.run.run (get s) = ((action.run.run s).1, get (action.run.run s).2)

namespace FileTree.Mirrors

theorem pure (a : α) : Mirrors get (pure a : ExceptT ε (StateM σ) α) (pure a) :=
  fun _ => rfl

theorem throw (e : ε) : Mirrors get (throw e : ExceptT ε (StateM σ) α) (throw e) :=
  fun _ => rfl

theorem bind {action : ExceptT ε (StateM σ) α} {alone : ExceptT ε (StateM FileTree) α}
    {next : α → ExceptT ε (StateM σ) β} {nextAlone : α → ExceptT ε (StateM FileTree) β}
    (h : Mirrors get action alone) (hnext : ∀ a, Mirrors get (next a) (nextAlone a)) :
    Mirrors get (action >>= next) (alone >>= nextAlone) := by
  intro s
  have hs := h s
  rcases hrun : action.run.run s with ⟨e | a, s₁⟩
  · rw [hrun] at hs
    simp only [ExceptT.run_bind, StateT.run_bind, hs, hrun]
    rfl
  · rw [hrun] at hs
    simp only [ExceptT.run_bind, StateT.run_bind, hs, hrun]
    exact hnext a s₁

theorem attempt {operation : ExceptT DiskError (StateM σ) α}
    {alone : ExceptT DiskError (StateM FileTree) α} (h : Mirrors get operation alone)
    (cause : DiskError → Error) :
    Mirrors get (FileStore.attempt cause operation) (FileStore.attempt cause alone) := by
  intro s
  have hs : Disk.exec alone (get s) = _ := h s
  exact FileStore.exec_attempt cause hs

end FileTree.Mirrors

namespace Membership.FileStore

variable {set : FileTree → σ → σ}

/-- The disk within a state and the disk that is a tree do the same. -/
theorem mirrors_within (hset : ∀ tree s, get (set tree s) = tree)
    (operation : FileTree → FileTree × Except DiskError α) :
    FileTree.Mirrors get (FileTree.within get set operation)
      (FileTree.within id (fun tree _ => tree) operation) := by
  intro s
  exact Prod.ext rfl (hset _ s).symm

theorem mirrors_load (file : FileStore) (hset : ∀ tree s, get (set tree s) = tree) :
    FileTree.Mirrors get (file.load (FileTree.disk get set)) (file.load treeDisk) := by
  unfold load
  refine .bind (fun s => rfl) fun present => ?_
  cases present with
  | false => exact .pure _
  | true =>
    have hread : FileTree.Mirrors get ((FileTree.disk get set).readText file.path)
        (treeDisk.readText file.path) := by
      unfold Disk.readText
      refine .bind (mirrors_within hset fun tree => (tree, tree.read file.path)) fun content => ?_
      cases content with
      | text text => exact .pure _
      | binary bytes => exact .throw _
    refine .bind (hread.attempt _) fun text => ?_
    cases Document.ofText? text with
    | some doc => exact .pure _
    | none => exact .throw _

theorem mirrors_save (file : FileStore) (hset : ∀ tree s, get (set tree s) = tree)
    (doc : Document) :
    FileTree.Mirrors get (file.save (FileTree.disk get set) doc) (file.save treeDisk doc) := by
  have hreplace : FileTree.Mirrors get (file.replace (FileTree.disk get set) doc)
      (file.replace treeDisk doc) := by
    have hfill : FileTree.Mirrors get (file.fill (FileTree.disk get set) doc)
        (file.fill treeDisk doc) := by
      unfold fill
      refine .bind (mirrors_within hset (FileTree.commit (·.create file.temporaryPath))) fun _ => ?_
      refine .bind (mirrors_within hset
        (FileTree.commit (·.write file.temporaryPath doc.text))) fun _ => ?_
      exact mirrors_within hset fun tree =>
        (tree, (tree.read file.temporaryPath).map fun _ => ())
    exact .bind (hfill.attempt _) fun _ =>
      .attempt (mirrors_within hset (FileTree.commit (·.rename file.temporaryPath file.path))) _
  cases hdirectory : file.directory? with
  | none =>
    rw [save_of_none hdirectory, save_of_none hdirectory]
    exact hreplace
  | some directory =>
    rw [save_of_some hdirectory, save_of_some hdirectory]
    exact .bind (.attempt (mirrors_within hset (·.createDirs directory)) _) fun _ => hreplace

theorem mirrors_record (file : FileStore) (hset : ∀ tree s, get (set tree s) = tree)
    (key : String) : FileTree.Mirrors get ((file.toStore (FileTree.disk get set)).record key)
      ((file.toStore treeDisk).record key) := by
  refine .bind (file.mirrors_load hset) fun doc => ?_
  cases doc.record? key with
  | some record => exact .pure _
  | none => exact .throw _

theorem mirrors_setRecord (file : FileStore) (hset : ∀ tree s, get (set tree s) = tree)
    (key : String) (record : Record) :
    FileTree.Mirrors get ((file.toStore (FileTree.disk get set)).setRecord key record)
      ((file.toStore treeDisk).setRecord key record) :=
  .bind (file.mirrors_load hset) fun _ => file.mirrors_save hset _

end Membership.FileStore

end

/-! ## Stores that serve a file -/

namespace Membership.FileStore

/-- What is seen of a store's file in the tree within a state that is as expected. -/
def seen (file : FileStore) (get : σ → FileTree) (expected : σ → Prop) : FileView σ where
  ready := expected
  file s := (get s).content? file.path

/-- The file of a store can be altered by a write that fails: there is a document to write over,
and the store is not guarded. -/
def Exposed (file : FileStore) (tree : FileTree) : Prop :=
  (∃ doc, exec (file.load treeDisk) tree = (.ok doc, tree)) ∧ ¬ file.Guarded tree

theorem guarded_of_not_exposed {file : FileStore} {tree : FileTree} (h : ¬ file.Exposed tree)
    {doc : Document} (hload : exec (file.load treeDisk) tree = (.ok doc, tree)) :
    file.Guarded tree := by
  by_contra hguarded
  exact h ⟨⟨doc, hload⟩, hguarded⟩

theorem Plain.not_exposed {file : FileStore} (plain : file.Plain) {tree : FileTree}
    (hrooted : tree.Rooted) : ¬ file.Exposed tree :=
  fun h => h.2 (plain.guarded hrooted)

/-- A call fails with nothing done, or it does to the tree within a state what is done on a disk
with some fault. -/
def Takes (get : σ → FileTree) (call : ExceptT Error (StateM σ) α)
    (alone : Option DiskFault → ExceptT Error (StateM FileTree) α) : Prop :=
  ∀ s s' result, exec call s = (result, s') → (∃ e, result = .error e) ∧ get s' = get s ∨
    ∃ fault, exec (alone fault) (get s) = (result, get s')

theorem takes_of_mirrors {get : σ → FileTree} {call : ExceptT Error (StateM σ) α}
    {alone : Option DiskFault → ExceptT Error (StateM FileTree) α}
    (h : FileTree.Mirrors get call (alone none)) : Takes get call alone := by
  intro s s' result hrun
  have hs : exec (alone none) (get s) = ((exec call s).1, get (exec call s).2) := h s
  rw [hrun] at hs
  exact .inr ⟨none, hs⟩

/-- A membership store serves a file: it takes its records from there and puts them there.  A look
at it leaves what is expected of its states. -/
structure Serves (file : FileStore) (store : MembershipStore (StateM σ)) (get : σ → FileTree)
    (expected : σ → Prop) : Prop where
  record : ∀ key,
    Takes get (store.record key) fun fault => (file.toStore (faultyDisk fault)).record key
  record_expected : ∀ key s, expected s → expected (exec (store.record key) s).2
  setRecord : ∀ key record, Takes get (store.setRecord key record) fun fault =>
    (file.toStore (faultyDisk fault)).setRecord key record

variable {file : FileStore}

/-- The document that a disk with some fault loads is in the file. -/
theorem loadsFrom_faultyDisk (file : FileStore) (fault : Option DiskFault)
    (expected : FileTree → Prop) : file.LoadsFrom (faultyDisk fault) (file.seen id expected) := by
  intro tree tree' result hs h
  obtain ⟨rfl, hloads⟩ := exec_load_faultyDisk h
  cases result with
  | ok doc => exact ⟨.refl hs, ofContent_of_exec_load (hloads doc rfl)⟩
  | error e => exact ⟨.refl hs, kind_of_exec_load h⟩

theorem serves_faultyDisk (file : FileStore) (fault : Option DiskFault)
    (expected : FileTree → Prop) : file.Serves (file.toStore (faultyDisk fault)) id expected where
  record _ _ _ _ h := .inr ⟨fault, h⟩
  record_expected _ _ hs :=
    ((file.loadsFrom_faultyDisk fault expected).exec_record hs rfl).keeps.ready
  setRecord _ _ _ _ _ h := .inr ⟨fault, h⟩

namespace Serves

variable {store : MembershipStore (StateM σ)} {get : σ → FileTree} {expected : σ → Prop}
  {s s' : σ} {key : String}

/-- A look at the store leaves the tree as it is, and a record comes from the file. -/
theorem exec_record (serves : file.Serves store get expected) {result : Except Error Record}
    (h : exec (store.record key) s = (result, s')) : get s' = get s ∧
      ∀ record, result = .ok record → ∃ doc,
        Document.ofContent ((get s).content? file.path) = .ok doc ∧
          doc.record? key = some record := by
  obtain ⟨⟨e, rfl⟩, hsame⟩ | ⟨fault, hrun⟩ := serves.record key s s' result h
  · exact ⟨hsame, nofun⟩
  · have hfinds := (file.loadsFrom_faultyDisk fault (· = get s)).exec_record rfl hrun
    refine ⟨hfinds.keeps.ready, ?_⟩
    rintro record rfl
    exact hfinds.2

/-- The answers of a store that serves a file come from the file. -/
theorem reflects (serves : file.Serves store get expected) :
    store.Reflects (file.seen get expected) where
  record_keeps key := FileView.isKeptBy_of_exec fun s s' result hs h => by
    have hexpected := serves.record_expected key s hs
    rw [h] at hexpected
    exact ⟨hexpected, congrArg (·.content? file.path) (serves.exec_record h).1⟩
  record_ok _ _ _ record _ h := (serves.exec_record h).2 record rfl
  setRecord_ok key record s s' _ h := by
    obtain ⟨⟨e, he⟩, -⟩ | ⟨fault, hrun⟩ := serves.setRecord key record s s' _ h
    · cases he
    · have hwrite : exec ((Write.record key record).run file (faultyDisk fault)) (get s) = _ := hrun
      obtain ⟨doc, hload, -, hcontent⟩ := Write.content?_of_exec_run hwrite
      exact ⟨doc, ofContent_of_exec_load hload, hcontent⟩

/-- A replacement of a record that fails leaves the file as it was, if the file is not exposed. -/
theorem file_eq_or_exposed (serves : file.Serves store get expected) {record : Record} {e : Error}
    (h : exec (store.setRecord key record) s = (.error e, s')) :
    (get s').content? file.path = (get s).content? file.path ∨ file.Exposed (get s) := by
  obtain ⟨-, hsame⟩ | ⟨fault, hrun⟩ := serves.setRecord key record s s' _ h
  · exact .inl (by rw [hsame])
  · by_cases hexposed : file.Exposed (get s)
    · exact .inr hexposed
    · have hwrite : exec ((Write.record key record).run file (faultyDisk fault)) (get s) = _ := hrun
      exact .inl (Write.content?_of_exec_run_error
        (fun _ hload _ => guarded_of_not_exposed hexposed hload) hwrite)

end Serves

end Membership.FileStore

end Converge
