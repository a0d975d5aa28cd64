import Converge.Proofs.FileBacked
import Converge.Retry
/-!
# Stores that are backed by a file

A `FileView` is what can be seen of a store's file.  A store in a file transacts when loading gives
the document in the file, and saving puts a document there or fails and leaves the file as it was
(`FileStore.Transacts`), as it does on a writable path (`Writable.transacts`).  Main statements: of
a store that transacts, every answer comes from the file, and a call on it either leaves the file as
it was, whatever it answers, or puts the whole changed document there (`Transacts.backedBy`,
`Transacts.exec_addNode` and `Transacts.exec_removeNode`).
-/

namespace Converge

open Converge.Membership (Document FileStore)

variable {σ α β : Type}

/-! ## What is seen of a file -/

/-- What is seen of a store's file: whether its path is as it has to be, and its content. -/
structure FileView (σ : Type) where
  ready : σ → Prop
  file : σ → Option Content

namespace FileView

/-- The document in the file. -/
def document (view : FileView σ) (s : σ) : Except Error Document :=
  Document.ofContent (view.file s)

/-- The path is as it has to be, and the file is as it was. -/
structure Keeps (view : FileView σ) (s s' : σ) : Prop where
  ready : view.ready s'
  file : view.file s' = view.file s

variable {view : FileView σ} {s s' s'' : σ}

theorem Keeps.refl (hs : view.ready s) : view.Keeps s s :=
  ⟨hs, rfl⟩

theorem Keeps.trans (h : view.Keeps s s') (h' : view.Keeps s' s'') : view.Keeps s s'' :=
  ⟨h'.ready, h'.file.trans h.file⟩

theorem Keeps.document_eq (h : view.Keeps s s') : view.document s' = view.document s := by
  rw [document, h.file, document]

/-- An action, whatever it gives, does nothing to the file. -/
def IsKeptBy (view : FileView σ) (action : StateM σ α) : Prop :=
  ∀ s, view.ready s → view.Keeps s (action.run s).2

theorem isKeptBy_pure (a : α) : view.IsKeptBy (pure a : StateM σ α) :=
  fun _ => .refl

theorem IsKeptBy.bind {action : StateM σ α} {next : α → StateM σ β} (h : view.IsKeptBy action)
    (hnext : ∀ a, view.IsKeptBy (next a)) : view.IsKeptBy (action >>= next) := fun s hs =>
  (h s hs).trans (hnext _ _ (h s hs).ready)

theorem IsKeptBy.keeps {action : ExceptT Error (StateM σ) α} (h : view.IsKeptBy action.run)
    (hs : view.ready s) {result : Except Error α} (hrun : exec action s = (result, s')) :
    view.Keeps s s' := by
  have hkeeps := h s hs
  rwa [show action.run.run s = _ from hrun] at hkeeps

theorem isKeptBy_of_exec {action : ExceptT Error (StateM σ) α}
    (h : ∀ s s' result, view.ready s → exec action s = (result, s') → view.Keeps s s') :
    view.IsKeptBy action.run :=
  fun s hs => h s _ _ hs rfl

/-- The continuation of an action that has failed does nothing. -/
theorem IsKeptBy.bind_run {action : ExceptT Error (StateM σ) α}
    {next : α → ExceptT Error (StateM σ) β} (h : view.IsKeptBy action.run)
    (hnext : ∀ a, view.IsKeptBy (next a).run) : view.IsKeptBy (action >>= next).run := by
  refine isKeptBy_of_exec fun s s' result hs hrun => ?_
  obtain ⟨e, haction, -⟩ | ⟨a, s₁, haction, hrest⟩ := exec_bind_cases hrun
  · exact h.keeps hs haction
  · have hkeeps := h.keeps hs haction
    exact hkeeps.trans ((hnext a).keeps hkeeps.ready hrest)

theorem IsKeptBy.tryCatch_run {action : ExceptT Error (StateM σ) α}
    {handler : Error → ExceptT Error (StateM σ) α} (h : view.IsKeptBy action.run)
    (hhandler : ∀ e, view.IsKeptBy (handler e).run) :
    view.IsKeptBy (tryCatch action handler).run := by
  refine isKeptBy_of_exec fun s s' result hs hrun => ?_
  rcases haction : exec action s with ⟨e | a, s₁⟩
  · have hkeeps := h.keeps hs haction
    rw [exec_tryCatch_error haction] at hrun
    exact hkeeps.trans ((hhandler e).keeps hkeeps.ready hrun)
  · rw [exec_tryCatch_ok haction] at hrun
    cases hrun
    exact h.keeps hs haction

/-- Repeating what leaves the file alone, with pauses that leave it alone, leaves it alone. -/
theorem IsKeptBy.retry {clock : Clock (StateM σ)} {action : ExceptT Error (StateM σ) α}
    (h : view.IsKeptBy action.run) (hsleep : ∀ span, view.IsKeptBy (clock.sleep span))
    (policy : RetryPolicy) : view.IsKeptBy (policy.retry clock action).run := by
  have hattempt : ∀ more, view.IsKeptBy (policy.attempt clock action more).run := by
    intro more
    induction more with
    | zero => exact h
    | succ more ih =>
      refine h.tryCatch_run fun e => ?_
      split
      · split
        · exact IsKeptBy.bind_run (fun s hs => hsleep _ s hs) fun _ => ih
        · exact ih
      · exact isKeptBy_pure _
  exact hattempt _

end FileView

/-! ## What calls do to the file -/

namespace FileView

variable (view : FileView σ)

/-- What loading comes to: the document in the file, or an error of the store. -/
def Loads (s : σ) : Except Error Document → σ → Prop
  | .ok doc, s' => view.Keeps s s' ∧ view.document s = .ok doc
  | .error e, s' => view.Keeps s s' ∧ e.kind = .store

/-- What reading a record comes to: it is in the document, or it is not there, or an error does not
tell. -/
def Finds (key : String) (s : σ) : Except Error Record → σ → Prop
  | .ok record, s' => view.Keeps s s' ∧
    ∃ doc, view.document s = .ok doc ∧ doc.record? key = some record
  | .error e, s' => view.Keeps s s' ∧ (e.kind = .recordNotFound →
    ∃ doc, view.document s = .ok doc ∧ doc.record? key = none)

/-- What saving a document comes to: it is in the file, or an error left the file as it was. -/
def Saves (doc : Document) (s : σ) : Except Error Unit → σ → Prop
  | .ok _, s' => view.ready s' ∧ view.file s' = some (.text doc.text)
  | .error e, s' => view.Keeps s s' ∧ e.kind = .store

/-- What a change of the document comes to: the changed document is in the file, or an error left
the file as it was. -/
def Changes (change : Document → Document) (s : σ) : Except Error Unit → σ → Prop
  | .ok _, s' => view.ready s' ∧ ∃ doc, view.document s = .ok doc ∧
    view.file s' = some (.text (change doc).text)
  | .error e, s' => view.Keeps s s' ∧ e.kind = .store

variable {view} {s s' : σ} {change : Document → Document} {doc : Document}

theorem Finds.keeps {key : String} {result : Except Error Record}
    (h : view.Finds key s result s') : view.Keeps s s' := by
  cases result with
  | ok record => exact h.1
  | error e => exact h.1

/-- A change that was made can be loaded, as the changed document comes back. -/
theorem Changes.document_eq (h : view.Changes change s (.ok ⟨⟩) s')
    (hdoc : view.document s = .ok doc) (hsound : (change doc).Sound) (hfits : (change doc).Fits) :
    view.document s' = .ok (change doc).reread := by
  obtain ⟨-, doc', hdoc', hfile⟩ := h
  obtain rfl := Except.ok.inj (hdoc.symm.trans hdoc')
  rw [document, hfile]
  exact Document.ofContent_text_reread hsound hfits

/-- A legible document is loaded as it was written. -/
theorem Changes.document_eq_of_legible (h : view.Changes change s (.ok ⟨⟩) s')
    (hdoc : view.document s = .ok doc) (hlegible : (change doc).Legible) :
    view.document s' = .ok (change doc) := by
  obtain ⟨hsound, hfits, hsteady⟩ := Document.legible_iff.1 hlegible
  rw [h.document_eq hdoc hsound hfits, hsound.reread_eq_iff.2 hsteady]

end FileView

/-- The answers of a store come from a file.  A look at it leaves the file as it was, and a record
that has been replaced is in the document that the file then holds.  What is left by a replacement
that fails is not said. -/
structure MembershipStore.Reflects (store : MembershipStore (StateM σ)) (view : FileView σ) :
    Prop where
  record_keeps : ∀ key, view.IsKeptBy (store.record key).run
  record_ok : ∀ key s s' record, view.ready s → exec (store.record key) s = (.ok record, s') →
    ∃ doc, view.document s = .ok doc ∧ doc.record? key = some record
  setRecord_ok : ∀ key record s s', view.ready s →
    exec (store.setRecord key record) s = (.ok ⟨⟩, s') → ∃ doc, view.document s = .ok doc ∧
      view.file s' = some (.text (doc.setRecord key record).text)

/-- The answers of a store come from a file, whose path stays as it has to be, and a call that fails
leaves the file as it was. -/
structure MembershipStore.BackedBy (store : MembershipStore (StateM σ)) (view : FileView σ) :
    Prop extends store.Reflects view where
  setRecord_error : ∀ key record s s' e, view.ready s →
    exec (store.setRecord key record) s = (.error e, s') → view.Keeps s s'
  setRecord_ready : ∀ key record s s', view.ready s →
    exec (store.setRecord key record) s = (.ok ⟨⟩, s') → view.ready s'

/-- A store says that a record is not there only if it is not. -/
def MembershipStore.Honest (store : MembershipStore (StateM σ)) (view : FileView σ) : Prop :=
  ∀ key s s' e, view.ready s → exec (store.record key) s = (.error e, s') →
    e.kind = .recordNotFound → ∃ doc, view.document s = .ok doc ∧ doc.record? key = none

namespace Membership.FileStore

/-! ## Stores that load -/

/-- Loading gives the document in the file. -/
def LoadsFrom (store : FileStore) (disk : Disk (StateM σ)) (view : FileView σ) : Prop :=
  ∀ s s' result, view.ready s → exec (store.load disk) s = (result, s') → view.Loads s result s'

/-- A record comes from the document in the file. -/
theorem LoadsFrom.exec_record {store : FileStore} {disk : Disk (StateM σ)} {view : FileView σ}
    (loads : store.LoadsFrom disk view) {s s' : σ} (hs : view.ready s) {key : String}
    {result : Except Error Record}
    (h : exec ((store.toStore disk).record key) s = (result, s')) :
    view.Finds key s result s' := by
  obtain ⟨e, hload, rfl⟩ | ⟨doc, s₁, hload, h⟩ := exec_bind_cases h
  · obtain ⟨hkeeps, hkind⟩ := loads _ _ _ hs hload
    exact ⟨hkeeps, fun habsent => nomatch hkind.symm.trans habsent⟩
  · obtain ⟨hkeeps, hdoc⟩ := loads _ _ _ hs hload
    cases hrecord : doc.record? key with
    | none =>
      simp only [hrecord] at h
      cases h
      exact ⟨hkeeps, fun _ => ⟨doc, hdoc, hrecord⟩⟩
    | some record =>
      simp only [hrecord] at h
      cases h
      exact ⟨hkeeps, doc, hdoc, hrecord⟩

theorem LoadsFrom.honest {store : FileStore} {disk : Disk (StateM σ)} {view : FileView σ}
    (loads : store.LoadsFrom disk view) : (store.toStore disk).Honest view :=
  fun _ _ _ _ hs h => (loads.exec_record hs h).2

/-! ## Stores that transact -/

/-- Loading gives the document in the file, and saving puts a document there or fails and leaves the
file as it was. -/
structure Transacts (store : FileStore) (disk : Disk (StateM σ)) (view : FileView σ) : Prop where
  load : store.LoadsFrom disk view
  save : ∀ doc s s' result, view.ready s → exec (store.save disk doc) s = (result, s') →
    view.Saves doc s result s'

namespace Transacts

variable {store : FileStore} {disk : Disk (StateM σ)} {view : FileView σ} {s s' : σ}

/-- A change of the loaded document is saved. -/
theorem exec_change (transacts : store.Transacts disk view) {change : Document → Document}
    {s₁ : σ} {doc : Document} (hkeeps : view.Keeps s s₁) (hdoc : view.document s = .ok doc)
    {result : Except Error Unit} (h : exec (store.save disk (change doc)) s₁ = (result, s')) :
    view.Changes change s result s' := by
  have hsaves := transacts.save _ _ _ _ hkeeps.ready h
  cases result with
  | ok _ => exact ⟨hsaves.1, doc, hdoc, hsaves.2⟩
  | error e => exact ⟨hkeeps.trans hsaves.1, hsaves.2⟩

/-- A change of the document is made in the file, or it fails and leaves the file as it was. -/
theorem exec_update (transacts : store.Transacts disk view) (hs : view.ready s)
    {change : Document → Document} {result : Except Error Unit}
    (h : exec (do store.save disk (change (← store.load disk))) s = (result, s')) :
    view.Changes change s result s' := by
  obtain ⟨e, hload, rfl⟩ | ⟨doc, s₁, hload, hsave⟩ := exec_bind_cases h
  · exact transacts.load _ _ _ hs hload
  · obtain ⟨hkeeps, hdoc⟩ := transacts.load _ _ _ hs hload
    exact transacts.exec_change hkeeps hdoc hsave

/-- A node is registered in the file, or an error left the file as it was. -/
theorem exec_addNode (transacts : store.Transacts disk view) (hs : view.ready s) {node : Node}
    {result : Except Error Unit} (h : exec (store.addNode disk node) s = (result, s')) :
    view.Changes (·.addNode node) s result s' :=
  transacts.exec_update hs h

/-- A node is taken out of the file if it is there. -/
theorem exec_removeNode (transacts : store.Transacts disk view) (hs : view.ready s) {name : String}
    {result : Except Error Unit} (h : exec (store.removeNode disk name) s = (result, s')) :
    view.Changes (·.dropNode name) s result s' ∨
      view.Keeps s s' ∧ result = .error (.nodeNotFound name) ∧
        ∃ doc, view.document s = .ok doc ∧ doc.hasNode name = false := by
  obtain ⟨e, hload, rfl⟩ | ⟨doc, s₁, hload, hrest⟩ := exec_bind_cases h
  · exact .inl (transacts.load _ _ _ hs hload)
  · obtain ⟨hkeeps, hdoc⟩ := transacts.load _ _ _ hs hload
    split at hrest
    · exact .inl (transacts.exec_change hkeeps hdoc hrest)
    · next hnode =>
      cases hrest
      exact .inr ⟨hkeeps, rfl, doc, hdoc, eq_false_of_ne_true hnode⟩

/-- A record that is not there is read as an empty one. -/
theorem exec_recordOrEmpty (transacts : store.Transacts disk view) (hs : view.ready s)
    {key : String} {record : Record}
    (h : exec ((store.toStore disk).recordOrEmpty key) s = (.ok record, s')) :
    view.Keeps s s' ∧
      ∃ doc, view.document s = .ok doc ∧ record = (doc.record? key).getD .empty := by
  rcases hrun : exec ((store.toStore disk).record key) s with ⟨e | found, s₁⟩
  · have habsent := exec_absentAsNone_error hrun .recordNotFound
    obtain ⟨hkeeps, hfound⟩ := transacts.load.exec_record hs hrun
    by_cases hkind : e.kind = .recordNotFound
    · rw [if_pos hkind] at habsent
      obtain ⟨doc, hdoc, hnone⟩ := hfound hkind
      cases (exec_bind_ok habsent _).symm.trans h
      exact ⟨hkeeps, doc, hdoc, by rw [hnone]⟩
    · rw [if_neg hkind] at habsent
      cases (exec_bind_error habsent _).symm.trans h
  · obtain ⟨hkeeps, doc, hdoc, hfind⟩ := transacts.load.exec_record hs hrun
    have hread := exec_absentAsNone_ok hrun .recordNotFound
    cases (exec_bind_ok hread _).symm.trans h
    exact ⟨hkeeps, doc, hdoc, by rw [hfind]⟩

theorem backedBy (transacts : store.Transacts disk view) :
    (store.toStore disk).BackedBy view where
  record_keeps _ :=
    FileView.isKeptBy_of_exec fun _ _ _ hs h => (transacts.load.exec_record hs h).keeps
  record_ok _ _ _ _ hs h := (transacts.load.exec_record hs h).2
  setRecord_ok _ _ _ _ hs h := (transacts.exec_update hs h).2
  setRecord_error _ _ _ _ _ hs h := (transacts.exec_update hs h).1
  setRecord_ready _ _ _ _ hs h := (transacts.exec_update hs h).1

end Transacts

/-! ### Writable paths -/

theorem Writable.transacts {store : FileStore} {disk : Disk (StateM σ)} {ready prepared : σ → Prop}
    {file temporary : σ → Option Content}
    (writable : store.Writable disk ready prepared file temporary) :
    store.Transacts disk ⟨ready, file⟩ where
  load s s' result hs h := by
    rw [writable.exec_load hs] at h
    obtain ⟨rfl, rfl⟩ := Prod.mk.inj h
    cases hdoc : Document.ofContent (file s) with
    | ok doc => exact ⟨.refl hs, hdoc⟩
    | error e => exact ⟨.refl hs, Document.kind_of_ofContent hdoc⟩
  save doc s s' result hs h := by
    obtain ⟨s₁, hsave, hs₁⟩ := writable.exec_save hs doc
    rw [hsave] at h
    cases h
    exact hs₁

end Membership.FileStore

end Converge
