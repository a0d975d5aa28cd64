import Converge.Disk.FileTree
import Converge.Membership.FileStore
import Converge.Proofs.DocumentText
import Converge.Proofs.Execution
/-!
# Stores in a file

What a disk has to do for a store whose path is writable is the structure `Writable`; a tree in
memory does it for a file in the root (`writable_inRoot`).  Main statements: loading gives what the
file says (`Writable.exec_load`), and saving succeeds and leaves the document's text in the file
(`Writable.exec_save`).
-/

namespace Converge

variable {σ α β : Type}

/-! ## Operations of a disk -/

/-- What an operation of a disk makes of a state. -/
def Disk.exec (operation : ExceptT DiskError (StateM σ) α) (s : σ) : Except DiskError α × σ :=
  operation.run.run s

theorem Disk.exec_bind_ok {operation : ExceptT DiskError (StateM σ) α} {s s' : σ} {a : α}
    (h : exec operation s = (.ok a, s')) (next : α → ExceptT DiskError (StateM σ) β) :
    exec (operation >>= next) s = exec (next a) s' := by
  simp only [exec, ExceptT.run_bind, StateT.run_bind] at h ⊢
  rw [h]
  rfl

theorem Disk.exec_bind_error {operation : ExceptT DiskError (StateM σ) α} {s s' : σ}
    {e : DiskError} (h : exec operation s = (.error e, s'))
    (next : α → ExceptT DiskError (StateM σ) β) :
    exec (operation >>= next) s = (.error e, s') := by
  simp only [exec, ExceptT.run_bind, StateT.run_bind] at h ⊢
  rw [h]
  rfl

theorem Disk.exec_bind_cases {operation : ExceptT DiskError (StateM σ) α}
    {next : α → ExceptT DiskError (StateM σ) β} {s s' : σ} {result : Except DiskError β}
    (h : exec (operation >>= next) s = (result, s')) :
    (∃ e, exec operation s = (.error e, s') ∧ result = .error e) ∨
      ∃ a s₁, exec operation s = (.ok a, s₁) ∧ exec (next a) s₁ = (result, s') := by
  rcases hrun : exec operation s with ⟨e | a, s₁⟩
  · rw [exec_bind_error hrun] at h
    cases h
    exact .inl ⟨e, rfl, rfl⟩
  · rw [exec_bind_ok hrun] at h
    exact .inr ⟨a, s₁, rfl, h⟩

/-- The operations that change a disk keep a property of the state that is not about the disk. -/
structure Disk.Keeps (disk : Disk (StateM σ)) (keeps : σ → Prop) : Prop where
  createDirs : ∀ path s, keeps s → keeps (exec (disk.createDirs path) s).2
  create : ∀ path s, keeps s → keeps (exec (disk.create path) s).2
  write : ∀ path text s, keeps s → keeps (exec (disk.write path text) s).2
  sync : ∀ path s, keeps s → keeps (exec (disk.sync path) s).2
  rename : ∀ path target s, keeps s → keeps (exec (disk.rename path target) s).2

/-- A tree within a state has nothing to do with the rest of the state. -/
theorem FileTree.disk_keeps {get : σ → FileTree} {set : FileTree → σ → σ} {keeps : σ → Prop}
    (h : ∀ tree s, keeps s → keeps (set tree s)) : (FileTree.disk get set).Keeps keeps where
  createDirs _ s hs := h _ s hs
  create _ s hs := h _ s hs
  write _ _ s hs := h _ s hs
  sync _ s hs := h _ s hs
  rename _ _ s hs := h _ s hs

namespace Membership

/-- The document in a file; a file that is not there holds none. -/
def Document.ofContent : Option Content → Except Error Document
  | none => .ok .empty
  | some (.binary _) =>
    .error (.storeCorrupted ("Failed to read store file: " ++ DiskError.notText.message))
  | some (.text text) =>
    match Document.ofText? text with
    | some doc => .ok doc
    | none => .error (.storeCorrupted "Failed to parse store file: not a membership document")

theorem Document.ofContent_text {doc : Document} (h : doc.Legible) :
    Document.ofContent (some (.text doc.text)) = .ok doc := by
  rw [ofContent, ofText?_text h]

theorem Document.ofText?_of_ofContent {text : String} {doc : Document}
    (h : Document.ofContent (some (.text text)) = .ok doc) : Document.ofText? text = some doc := by
  rw [ofContent] at h
  cases htext : Document.ofText? text with
  | none =>
    rw [htext] at h
    cases h
  | some parsed =>
    rw [htext] at h
    rw [Except.ok.inj h]

/-- A text that holds a document is loaded. -/
theorem Document.ofContent_of_isSome (text : String) (h : (Document.ofText? text).isSome) :
    Document.ofContent (some (.text text)) = .ok ((Document.ofText? text).getD .empty) := by
  obtain ⟨doc, hdoc⟩ := Option.isSome_iff_exists.1 h
  rw [ofContent, hdoc]
  rfl

theorem Document.legible_of_ofContent {content : Option Content} {doc : Document}
    (h : Document.ofContent content = .ok doc) (hsteady : doc.Steady) : doc.Legible := by
  unfold ofContent at h
  split at h
  · cases h
    exact nofun
  · cases h
  · split at h
    · next htext =>
      cases h
      exact legible_of_ofText? htext hsteady
    · cases h

/-- A document that is loaded from a file is sound and fits. -/
theorem Document.sound_of_ofContent {content : Option Content} {doc : Document}
    (h : ofContent content = .ok doc) : doc.Sound ∧ doc.Fits := by
  unfold ofContent at h
  split at h
  · cases h
    exact ⟨sound_empty, fits_empty⟩
  · cases h
  · split at h
    · next htext =>
      cases h
      exact sound_of_ofText? htext
    · cases h

/-- A sound document that fits is loaded from its text, as it comes back. -/
theorem Document.ofContent_text_reread {doc : Document} (h : doc.Sound) (hfits : doc.Fits) :
    ofContent (some (.text doc.text)) = .ok doc.reread := by
  rw [ofContent, ofText?_text_reread h hfits]

/-- The text of a sound document can be loaded just if the document fits. -/
theorem Document.ofContent_text_iff {doc : Document} (h : doc.Sound) :
    (∃ doc', ofContent (some (.text doc.text)) = .ok doc') ↔ doc.Fits := by
  constructor
  · rintro ⟨doc', hdoc'⟩
    exact fits_of_ofText?_text (ofText?_of_ofContent hdoc')
  · exact fun hfits => ⟨doc.reread, ofContent_text_reread h hfits⟩

theorem Document.kind_of_ofContent {content : Option Content} {e : Error}
    (h : Document.ofContent content = .error e) : e.kind = .store := by
  unfold ofContent at h
  split at h
  · cases h
  · cases h
    rfl
  · split at h
    · cases h
    · cases h
      rfl

namespace FileStore

theorem exec_attempt {operation : ExceptT DiskError (StateM σ) α} {s s' : σ}
    {result : Except DiskError α} (cause : DiskError → Error)
    (h : Disk.exec operation s = (result, s')) :
    exec (attempt cause operation) s = (result.mapError cause, s') := by
  have hrun : exec (attempt cause operation) s =
      ((Disk.exec operation s).1.mapError cause, (Disk.exec operation s).2) := rfl
  rw [hrun, h]

/-- An operation that is run for a store fails with its cause or succeeds. -/
theorem exec_attempt_cases {operation : ExceptT DiskError (StateM σ) α}
    {cause : DiskError → Error} {s s' : σ} {result : Except Error α}
    (h : exec (attempt cause operation) s = (result, s')) :
    (∃ e, Disk.exec operation s = (.error e, s') ∧ result = .error (cause e)) ∨
      ∃ a, Disk.exec operation s = (.ok a, s') ∧ result = .ok a := by
  rcases hrun : Disk.exec operation s with ⟨e | a, s₁⟩
  · rw [exec_attempt cause hrun] at h
    cases h
    exact .inl ⟨e, rfl, rfl⟩
  · rw [exec_attempt cause hrun] at h
    cases h
    exact .inr ⟨a, rfl, rfl⟩

/-- What a disk does to write the temporary file. -/
def fill (store : FileStore) (disk : Disk (StateM σ)) (doc : Document) :
    ExceptT DiskError (StateM σ) Unit := do
  disk.create store.temporaryPath
  disk.write store.temporaryPath doc.text
  disk.sync store.temporaryPath

theorem exec_writeTemporary_of_fill {store : FileStore} {disk : Disk (StateM σ)} {doc : Document}
    {s s' : σ} {result : Except DiskError Unit}
    (h : Disk.exec (store.fill disk doc) s = (result, s')) :
    exec (store.writeTemporary disk doc) s =
      (result.mapError fun e => .storeUnwritable (store.temporaryPath ++ ": " ++ e.message), s') :=
  exec_attempt _ h

/-- A document is written beside the store's file and moved over it. -/
def replace (store : FileStore) (disk : Disk (StateM σ)) (doc : Document) :
    ExceptT Error (StateM σ) Unit := do
  store.writeTemporary disk doc
  attempt (fun e => .storeUnwritable ("Failed to rename store file: " ++ e.message))
    (disk.rename store.temporaryPath store.path)

theorem save_of_none {store : FileStore} (h : store.directory? = none) (disk : Disk (StateM σ))
    (doc : Document) : store.save disk doc = store.replace disk doc := by
  unfold save
  rw [h]
  rfl

theorem save_of_some {store : FileStore} {directory : String}
    (h : store.directory? = some directory) (disk : Disk (StateM σ)) (doc : Document) :
    store.save disk doc =
      attempt (fun e => .storeUnwritable ("Failed to create store directory: " ++ e.message))
        (disk.createDirs directory) >>= fun _ => store.replace disk doc := by
  unfold save
  rw [h]
  rfl

/-- What is loaded when a disk answers whether the store's file is there, and what is in it. -/
def loaded (present : Bool) (content : Except DiskError Content) : Except Error Document :=
  if present then
    match content with
    | .ok content => Document.ofContent (some content)
    | .error e => .error (.storeCorrupted ("Failed to read store file: " ++ e.message))
  else .ok .empty

theorem kind_of_loaded {present : Bool} {content : Except DiskError Content} {e : Error}
    (h : loaded present content = .error e) : e.kind = .store := by
  unfold loaded at h
  split at h
  · split at h
    · exact Document.kind_of_ofContent h
    · cases h
      rfl
  · cases h

/-- Loading takes two answers of the disk, which stays as it is. -/
theorem exec_load_of_answers {store : FileStore} {disk : Disk (StateM σ)} {s : σ} {present : Bool}
    {content : Except DiskError Content}
    (hpresent : (disk.isPresent store.path).run s = (present, s))
    (hread : present → Disk.exec (disk.read store.path) s = (content, s)) :
    exec (store.load disk) s = (loaded present content, s) := by
  have hlift : exec (monadLift (disk.isPresent store.path) : ExceptT Error (StateM σ) Bool) s =
      (.ok present, s) := by
    show (Except.ok ((disk.isPresent store.path).run s).1,
      ((disk.isPresent store.path).run s).2) = _
    rw [hpresent]
  unfold load
  refine (exec_bind_ok hlift _).trans ?_
  cases present with
  | false => rfl
  | true =>
    have htext : Disk.exec (disk.readText store.path) s =
        (match content with
          | .ok (.text text) => .ok text
          | .ok (.binary _) => .error .notText
          | .error e => .error e, s) := by
      unfold Disk.readText
      cases content with
      | error e => exact Disk.exec_bind_error (hread rfl) _
      | ok content =>
        rw [Disk.exec_bind_ok (hread rfl)]
        cases content <;> rfl
    rcases content with e | text | bytes
    · exact exec_bind_error (exec_attempt _ htext) _
    · refine (exec_bind_ok (exec_attempt _ htext) _).trans ?_
      show _ = (Document.ofContent (some (.text text)), s)
      rw [Document.ofContent]
      cases Document.ofText? text <;> rfl
    · exact exec_bind_error (exec_attempt _ htext) _

/-- A record is looked up in the document that is loaded. -/
theorem exec_recordOrEmpty_of_load {store : FileStore} {disk : Disk (StateM σ)} {s s' : σ}
    {doc : Document} (h : exec (store.load disk) s = (.ok doc, s')) (key : String) :
    exec ((store.toStore disk).recordOrEmpty key) s =
      (.ok ((doc.record? key).getD .empty), s') := by
  unfold MembershipStore.recordOrEmpty
  cases hfind : doc.record? key with
  | none =>
    have hrecord : exec ((store.toStore disk).record key) s =
        (.error (.recordNotFound key), s') := by
      refine (exec_bind_ok h _).trans ?_
      rw [hfind]
      rfl
    exact exec_bind_ok (exec_absentAsNone_error hrecord .recordNotFound) _
  | some record =>
    have hrecord : exec ((store.toStore disk).record key) s = (.ok record, s') := by
      refine (exec_bind_ok h _).trans ?_
      rw [hfind]
      rfl
    exact exec_bind_ok (exec_absentAsNone_ok hrecord .recordNotFound) _

/-! ## Writable paths -/

/-- The path of a store is writable: in a state that is ready for it, its file can be read as it is,
its directory can be made, and then a document can be written beside it and moved over it. -/
structure Writable (store : FileStore) (disk : Disk (StateM σ)) (ready prepared : σ → Prop)
    (file temporary : σ → Option Content) : Prop where
  ready_of_prepared : ∀ s, prepared s → ready s
  isPresent : ∀ s, ready s → (disk.isPresent store.path).run s = ((file s).isSome, s)
  read : ∀ s content, ready s → file s = some content →
    Disk.exec (disk.read store.path) s = (.ok content, s)
  /-- A path that names no directory is prepared as it is. -/
  prepared_of_none : store.directory? = none → ∀ s, ready s → prepared s
  createDirs : ∀ directory, store.directory? = some directory → ∀ s, ready s →
    ∃ s', Disk.exec (disk.createDirs directory) s = (.ok ⟨⟩, s') ∧ prepared s'
  create : ∀ s, prepared s → ∃ s', Disk.exec (disk.create store.temporaryPath) s = (.ok ⟨⟩, s') ∧
    prepared s' ∧ temporary s' = some (.text "")
  write : ∀ s old text, prepared s → temporary s = some (.text old) →
    ∃ s', Disk.exec (disk.write store.temporaryPath text) s = (.ok ⟨⟩, s') ∧ prepared s' ∧
      temporary s' = some (.text (old ++ text))
  sync : ∀ s content, prepared s → temporary s = some content →
    ∃ s', Disk.exec (disk.sync store.temporaryPath) s = (.ok ⟨⟩, s') ∧ prepared s' ∧
      temporary s' = some content
  rename : ∀ s content, prepared s → temporary s = some content →
    ∃ s', Disk.exec (disk.rename store.temporaryPath store.path) s = (.ok ⟨⟩, s') ∧ prepared s' ∧
      file s' = some content

namespace Writable

variable {store : FileStore} {disk : Disk (StateM σ)} {ready prepared : σ → Prop}
  {file temporary : σ → Option Content} {s : σ}

/-- Loading gives the document in the file and changes nothing. -/
theorem exec_load (writable : store.Writable disk ready prepared file temporary) (hs : ready s) :
    exec (store.load disk) s = (Document.ofContent (file s), s) := by
  have hpresent := writable.isPresent s hs
  cases hfile : file s with
  | none =>
    rw [hfile] at hpresent
    exact @exec_load_of_answers _ _ _ _ _ (.error .notFound) hpresent nofun
  | some content =>
    rw [hfile] at hpresent
    exact exec_load_of_answers hpresent fun _ => writable.read s content hs hfile

/-- The document is written to the temporary file. -/
theorem exec_writeTemporary (writable : store.Writable disk ready prepared file temporary)
    (hs : prepared s) (doc : Document) :
    ∃ s', exec (store.writeTemporary disk doc) s = (.ok ⟨⟩, s') ∧ prepared s' ∧
      temporary s' = some (.text doc.text) := by
  obtain ⟨s₁, hcreate, hs₁, hempty⟩ := writable.create s hs
  obtain ⟨s₂, hwrite, hs₂, htext⟩ := writable.write s₁ "" doc.text hs₁ hempty
  obtain ⟨s₃, hsync, hs₃, hsynced⟩ := writable.sync s₂ _ hs₂ htext
  rw [String.empty_append] at hsynced
  have hfill : Disk.exec (store.fill disk doc) s = (.ok ⟨⟩, s₃) := by
    rw [fill, Disk.exec_bind_ok hcreate, Disk.exec_bind_ok hwrite, hsync]
  exact ⟨s₃, exec_writeTemporary_of_fill hfill, hs₃, hsynced⟩

theorem exec_replace (writable : store.Writable disk ready prepared file temporary)
    (hs : prepared s) (doc : Document) :
    ∃ s', exec (store.replace disk doc) s = (.ok ⟨⟩, s') ∧ ready s' ∧
      file s' = some (.text doc.text) := by
  obtain ⟨s₁, hwrite, hs₁, htemporary⟩ := writable.exec_writeTemporary hs doc
  obtain ⟨s₂, hrename, hs₂, hfile⟩ := writable.rename s₁ _ hs₁ htemporary
  refine ⟨s₂, ?_, writable.ready_of_prepared s₂ hs₂, hfile⟩
  rw [replace, exec_bind_ok hwrite]
  exact exec_attempt _ hrename

/-- Saving succeeds and leaves the document's text in the file. -/
theorem exec_save (writable : store.Writable disk ready prepared file temporary) (hs : ready s)
    (doc : Document) :
    ∃ s', exec (store.save disk doc) s = (.ok ⟨⟩, s') ∧ ready s' ∧
      file s' = some (.text doc.text) := by
  cases hdirectory : store.directory? with
  | none =>
    rw [save_of_none hdirectory]
    exact writable.exec_replace (writable.prepared_of_none hdirectory s hs) doc
  | some directory =>
    obtain ⟨s₁, hcreate, hs₁⟩ := writable.createDirs directory hdirectory s hs
    rw [save_of_some hdirectory, exec_bind_ok (exec_attempt _ hcreate)]
    exact writable.exec_replace hs₁ doc

/-- A writable path is one also while something else is kept. -/
theorem and {keeps : σ → Prop} (writable : store.Writable disk ready prepared file temporary)
    (hkeeps : disk.Keeps keeps) :
    store.Writable disk (fun s => ready s ∧ keeps s) (fun s => prepared s ∧ keeps s) file
      temporary where
  ready_of_prepared s hs := ⟨writable.ready_of_prepared s hs.1, hs.2⟩
  isPresent s hs := writable.isPresent s hs.1
  read s content hs := writable.read s content hs.1
  prepared_of_none hdirectory s hs := ⟨writable.prepared_of_none hdirectory s hs.1, hs.2⟩
  createDirs directory hdirectory s hs := by
    obtain ⟨s', hrun, hs'⟩ := writable.createDirs directory hdirectory s hs.1
    have hkept := hkeeps.createDirs directory s hs.2
    rw [hrun] at hkept
    exact ⟨s', hrun, hs', hkept⟩
  create s hs := by
    obtain ⟨s', hrun, hs', htemporary⟩ := writable.create s hs.1
    have hkept := hkeeps.create store.temporaryPath s hs.2
    rw [hrun] at hkept
    exact ⟨s', hrun, ⟨hs', hkept⟩, htemporary⟩
  write s old text hs hold := by
    obtain ⟨s', hrun, hs', htemporary⟩ := writable.write s old text hs.1 hold
    have hkept := hkeeps.write store.temporaryPath text s hs.2
    rw [hrun] at hkept
    exact ⟨s', hrun, ⟨hs', hkept⟩, htemporary⟩
  sync s content hs hcontent := by
    obtain ⟨s', hrun, hs', htemporary⟩ := writable.sync s content hs.1 hcontent
    have hkept := hkeeps.sync store.temporaryPath s hs.2
    rw [hrun] at hkept
    exact ⟨s', hrun, ⟨hs', hkept⟩, htemporary⟩
  rename s content hs hcontent := by
    obtain ⟨s', hrun, hs', hfile⟩ := writable.rename s content hs.1 hcontent
    have hkept := hkeeps.rename store.temporaryPath store.path s hs.2
    rw [hrun] at hkept
    exact ⟨s', hrun, ⟨hs', hkept⟩, hfile⟩

/-! ### Operations -/

variable {doc : Document}

theorem exec_nodes (writable : store.Writable disk ready prepared file temporary) (hs : ready s) :
    exec (store.toStore disk).nodes s =
      ((Document.ofContent (file s)).map (·.nodes), s) := by
  have hload := writable.exec_load hs
  show exec (store.load disk >>= fun doc => pure doc.nodes) s = _
  cases hdoc : Document.ofContent (file s) with
  | error e =>
    rw [hdoc] at hload
    exact exec_bind_error hload _
  | ok doc =>
    rw [hdoc] at hload
    exact exec_bind_ok hload _

theorem exec_record (writable : store.Writable disk ready prepared file temporary) (hs : ready s)
    (key : String) :
    exec ((store.toStore disk).record key) s =
      ((Document.ofContent (file s)).bind fun doc =>
        match doc.record? key with
        | some record => .ok record
        | none => .error (.recordNotFound key), s) := by
  have hload := writable.exec_load hs
  unfold toStore
  cases hdoc : Document.ofContent (file s) with
  | error e =>
    rw [hdoc] at hload
    exact exec_bind_error hload _
  | ok doc =>
    rw [hdoc] at hload
    refine (exec_bind_ok hload _).trans ?_
    show exec (match doc.record? key with | some record => _ | none => _) s =
      (match doc.record? key with | some record => _ | none => _, s)
    cases doc.record? key <;> rfl

theorem exec_recordOrEmpty (writable : store.Writable disk ready prepared file temporary)
    (hs : ready s) (key : String) :
    exec ((store.toStore disk).recordOrEmpty key) s =
      ((Document.ofContent (file s)).map fun doc => (doc.record? key).getD .empty, s) := by
  cases hdoc : Document.ofContent (file s) with
  | error e =>
    have hrecord := writable.exec_record hs key
    rw [hdoc] at hrecord
    have habsent := exec_absentAsNone_error hrecord .recordNotFound
    rw [if_neg (by rw [Document.kind_of_ofContent hdoc]; decide)] at habsent
    exact exec_bind_error habsent _
  | ok doc =>
    have hload := writable.exec_load hs
    rw [hdoc] at hload
    exact exec_recordOrEmpty_of_load hload key

/-- A change of the document is made in the file. -/
theorem exec_update (writable : store.Writable disk ready prepared file temporary) (hs : ready s)
    (hdoc : Document.ofContent (file s) = .ok doc) (change : Document → Document) :
    ∃ s', exec (do store.save disk (change (← store.load disk))) s = (.ok ⟨⟩, s') ∧ ready s' ∧
      file s' = some (.text (change doc).text) := by
  have hload := writable.exec_load hs
  rw [hdoc] at hload
  obtain ⟨s', hsave, hs'⟩ := writable.exec_save hs (change doc)
  exact ⟨s', (exec_bind_ok hload _).trans hsave, hs'⟩

theorem exec_removeNode (writable : store.Writable disk ready prepared file temporary)
    (hs : ready s) (hdoc : Document.ofContent (file s) = .ok doc) (name : String) :
    if doc.hasNode name then
      ∃ s', exec (store.removeNode disk name) s = (.ok ⟨⟩, s') ∧ ready s' ∧
        file s' = some (.text (doc.dropNode name).text)
    else exec (store.removeNode disk name) s = (.error (.nodeNotFound name), s) := by
  have hload := writable.exec_load hs
  rw [hdoc] at hload
  obtain ⟨s', hsave, hs'⟩ := writable.exec_save hs (doc.dropNode name)
  have hremove : exec (store.removeNode disk name) s =
      exec (if doc.hasNode name then store.save disk (doc.dropNode name)
        else throw (.nodeNotFound name)) s := exec_bind_ok hload _
  split
  · next hnode =>
    rw [if_pos hnode] at hremove
    exact ⟨s', hremove.trans hsave, hs'⟩
  · next hnode =>
    rw [if_neg hnode] at hremove
    exact hremove

end Writable

/-! ## A file in the root of a tree -/

/-- The store in a file of the root. -/
def inRoot : FileStore :=
  ⟨"/cluster.json"⟩

/-- The content of a file of the root. -/
def rootFile? (name : String) (tree : FileTree) : Option Content :=
  match tree.stored? [name] with
  | some (.file content) => some content
  | _ => none

/-- Neither the store's file nor the one beside it is a directory. -/
def RootIsReady (tree : FileTree) : Prop :=
  ∀ name ∈ ["cluster.json", "cluster.tmp"], tree.stored? [name] ≠ some .directory

theorem locate_inRoot (tree : FileTree) : tree.locate inRoot.path = .ok ["cluster.json"] := rfl

theorem temporaryPath_inRoot : inRoot.temporaryPath = "/cluster.tmp" := by
  decide +kernel

theorem directory?_inRoot : inRoot.directory? = some "/" := by
  decide +kernel

theorem locate_besideRoot (tree : FileTree) :
    tree.locate inRoot.temporaryPath = .ok ["cluster.tmp"] := by
  rw [temporaryPath_inRoot]
  rfl

theorem stored?_of_rootFile? {name : String} {tree : FileTree} {content : Content}
    (h : rootFile? name tree = some content) : tree.stored? [name] = some (.file content) := by
  unfold rootFile? at h
  split at h
  · next hstored => rw [hstored, Option.some.inj h]
  · cases h

theorem RootIsReady.file (content : Content) :
    RootIsReady ⟨[(["cluster.json"], .file content)], []⟩ := by
  intro name hmem
  simp only [List.mem_cons, List.not_mem_nil, or_false] at hmem
  obtain rfl | rfl := hmem <;> nofun

theorem RootIsReady.put {tree : FileTree} (h : RootIsReady tree) (name : String)
    (content : Content) : RootIsReady (tree.put [name] (.file content)) := by
  intro other hother
  by_cases heq : [other] = [name]
  · rw [heq, FileTree.stored?_put_self (List.cons_ne_nil _ _)]
    nofun
  · rw [FileTree.stored?_put_of_ne heq]
    exact h other hother

theorem RootIsReady.remove {tree : FileTree} (h : RootIsReady tree) (name : String) :
    RootIsReady (tree.remove [name]) := by
  intro other hother
  by_cases heq : [other] = [name]
  · rw [heq, FileTree.stored?_remove_self (List.cons_ne_nil _ _)]
    nofun
  · rw [FileTree.stored?_remove_of_ne heq]
    exact h other hother

theorem rootFile?_put (name : String) (tree : FileTree) (content : Content) :
    rootFile? name (tree.put [name] (.file content)) = some content := by
  rw [rootFile?, FileTree.stored?_put_self (List.cons_ne_nil _ _)]

/-- An operation that succeeds on the tree of a state. -/
theorem exec_commit (get : σ → FileTree) (set : FileTree → σ → σ)
    (operation : FileTree → Except DiskError FileTree) {s : σ} {tree : FileTree}
    (h : operation (get s) = .ok tree) :
    Disk.exec (FileTree.within get set (FileTree.commit operation)) s = (.ok ⟨⟩, set tree s) := by
  have hcommit : FileTree.commit operation (get s) = (tree, .ok ⟨⟩) := by
    rw [FileTree.commit, h]
    rfl
  show ((FileTree.commit operation (get s)).2, set (FileTree.commit operation (get s)).1 s) = _
  rw [hcommit]

/-- The root of a tree in memory is writable. -/
theorem writable_inRoot {get : σ → FileTree} {set : FileTree → σ → σ}
    (hget : ∀ tree s, get (set tree s) = tree) (hset : ∀ s, set (get s) s = s) :
    inRoot.Writable (FileTree.disk get set) (fun s => RootIsReady (get s))
      (fun s => RootIsReady (get s)) (fun s => rootFile? "cluster.json" (get s))
      (fun s => rootFile? "cluster.tmp" (get s)) where
  ready_of_prepared _ hs := hs
  isPresent s hs := by
    show (((get s).isPresent inRoot.path, s) : Bool × σ) = _
    have hnot := hs "cluster.json" (by simp)
    rw [FileTree.isPresent, locate_inRoot, rootFile?]
    cases hstored : (get s).stored? ["cluster.json"] with
    | none => simp [hstored]
    | some entry =>
      cases entry with
      | directory => exact absurd hstored hnot
      | file content => simp [hstored]
  read s content hs hfile := by
    show ((get s).read inRoot.path, set (get s) s) = _
    rw [hset, FileTree.read_eq (locate_inRoot _) (stored?_of_rootFile? hfile)]
  prepared_of_none _ s hs := hs
  createDirs directory hdirectory s hs := by
    obtain rfl : "/" = directory := Option.some.inj (directory?_inRoot.symm.trans hdirectory)
    refine ⟨s, ?_, hs⟩
    show (_, set (get s) s) = _
    rw [hset]
    rfl
  create s hs := by
    have hcreate := FileTree.create_eq (locate_besideRoot (get s)) (hs "cluster.tmp" (by simp))
    refine ⟨set _ s, exec_commit get set (·.create inRoot.temporaryPath) hcreate, ?_⟩
    rw [hget]
    exact ⟨hs.put _ _, rootFile?_put _ _ _⟩
  write s old text hs hold := by
    have hwrite := FileTree.write_eq (locate_besideRoot (get s)) (stored?_of_rootFile? hold) text
    refine ⟨set _ s, exec_commit get set (·.write inRoot.temporaryPath text) hwrite, ?_⟩
    rw [hget]
    exact ⟨hs.put _ _, rootFile?_put _ _ _⟩
  sync s content hs hcontent := by
    refine ⟨s, ?_, hs, hcontent⟩
    show (((get s).read inRoot.temporaryPath).map fun _ => PUnit.unit, set (get s) s) = _
    rw [hset, FileTree.read_eq (locate_besideRoot _) (stored?_of_rootFile? hcontent)]
    rfl
  rename s content hs hcontent := by
    have hrename := FileTree.rename_eq (locate_besideRoot (get s)) (locate_inRoot (get s))
      (stored?_of_rootFile? hcontent) (hs "cluster.json" (by simp))
    refine ⟨set _ s,
      exec_commit get set (·.rename inRoot.temporaryPath inRoot.path) hrename, ?_⟩
    rw [hget]
    exact ⟨(hs.remove _).put _ _, rootFile?_put _ _ _⟩

/-- The disk that is a tree. -/
def treeDisk : Disk (StateM FileTree) :=
  FileTree.disk id fun tree _ => tree

theorem writable_treeDisk : inRoot.Writable treeDisk RootIsReady RootIsReady
    (rootFile? "cluster.json") (rootFile? "cluster.tmp") :=
  writable_inRoot (fun _ _ => rfl) fun _ => rfl

end FileStore

end Membership

end Converge
