import Converge.Plugin.Lifecycle
import Converge.Proofs.Backing
import Converge.Proofs.RecordChange
/-!
# Interleaved updates

An update reads a record of a store and writes the changed record back by a later call, between
which others may make theirs.  A `Process` is an action that is cut into its calls; it is the code
of the update itself that is cut, as it is written for every monad.  `Interleaving` says which calls
may follow each other, as long as none fails but for want of a record or a node.  Main statement:
updates under different keys and calls about nodes lose nothing in any interleaving, just if the
doubles in the document that they begin with are steady (`Job.losesNothing_iff_steady`), because
every write writes the whole document anew.
-/

namespace Converge

open Converge.Membership (Document FileStore)

variable {σ α β : Type}

/-! ## Processes -/

/-- An action that is made up of calls. -/
inductive Process (σ α : Type) where
  | done (a : α)
  /-- A call: what it leaves of a state, and how the action goes on after it. -/
  | call (after : σ → σ) (next : σ → Process σ α)

namespace Process

/-- One process after another. -/
def bind : Process σ α → (α → Process σ β) → Process σ β
  | .done a, rest => rest a
  | .call after next, rest => .call after fun s => (next s).bind rest

instance : Monad (Process σ) where
  pure := .done
  bind := bind

/-- An action that is a single call. -/
def ofCall (action : ExceptT Error (StateM σ) α) : ExceptT Error (Process σ) α :=
  ExceptT.mk (.call (fun s => (exec action s).2) fun s => .done (exec action s).1)

end Process

/-- A store whose calls are made by processes. -/
def MembershipStore.shared (store : MembershipStore (StateM σ)) : MembershipStore (Process σ) where
  nodes := .ofCall store.nodes
  record key := .ofCall (store.record key)
  setRecord key record := .ofCall (store.setRecord key record)

/-- A record is read by one call, and one that is not there is empty. -/
theorem MembershipStore.run_recordOrEmpty_bind (store : MembershipStore (StateM σ)) {key : String}
    {rest : Record → ExceptT Error (Process σ) α}
    {resume : Except Error Record → Process σ (Except Error α)}
    (hok : ∀ record, resume (.ok record) = (rest record).run)
    (herror : ∀ e, resume (.error e) =
      if e.kind = .recordNotFound then (rest .empty).run else .done (.error e)) :
    (store.shared.recordOrEmpty key >>= rest).run =
      .call (fun s => (exec (store.record key) s).2) fun s =>
        resume (exec (store.record key) s).1 := by
  refine congrArg (Process.call _) (funext fun s => ?_)
  dsimp only
  cases (exec (store.record key) s).1 with
  | ok record => exact (hok record).symm
  | error e =>
    show ((if e.kind = .recordNotFound then pure none else throw e :
      ExceptT Error (Process σ) (Option Record)).run.bind _).bind _ = _
    rw [herror]
    by_cases hkind : e.kind = .recordNotFound
    · rw [if_pos hkind, if_pos hkind]
      rfl
    · rw [if_neg hkind, if_neg hkind]
      rfl

/-! ## Updates -/

/-- An update of a record. -/
inductive Update where
  /-- A machine joins or leaves the list in a record. -/
  | note (key machine : String) (change : Placement.Change)
  /-- The state of a plugin is written at a time. -/
  | persist (name version : String) (enabled : Bool) (time : Timestamp)

namespace Update

/-- The key of the record. -/
def key : Update → String
  | .note key .. => key
  | .persist name .. => Plugin.key name

/-- What becomes of the record. -/
def change : Update → Record → Record
  | .note _ machine change => Placement.amend change machine
  | .persist _ version enabled time =>
    (Plugin.State.mk enabled (some version) (some time) .empty).mergeInto

/-- The update, on a store. -/
def run {m : Type → Type} [Monad m] (store : MembershipStore m) : Update → ExceptT Error m Unit
  | .note key machine change => Placement.note store key machine change
  | .persist name version enabled time =>
    Plugin.persist store ⟨fun _ => pure ⟨⟩, pure time⟩ name version enabled

/-- The second call of an update, after a record was read. -/
def write (store : MembershipStore (StateM σ)) (update : Update) (record : Record) :
    Process σ (Except Error Unit) :=
  (Process.ofCall (store.setRecord update.key (update.change record))).run

/-- What follows the first call of an update: it goes on with the record, with an empty one if there
is none, or not at all. -/
def resume (store : MembershipStore (StateM σ)) (update : Update) :
    Except Error Record → Process σ (Except Error Unit)
  | .ok record => update.write store record
  | .error e => if e.kind = .recordNotFound then update.write store .empty else .done (.error e)

theorem plain_change (update : Update) : Record.Plain update.change := by
  cases update with
  | note key machine change => exact Placement.plain_amend change machine
  | persist name version enabled time => exact Plugin.State.plain_mergeInto enabled version time _

/-- An update reads its record and goes on with what it was told. -/
theorem run_shared (store : MembershipStore (StateM σ)) (update : Update) :
    (update.run store.shared).run =
      .call (fun s => (exec (store.record update.key) s).2) fun s =>
        update.resume store (exec (store.record update.key) s).1 := by
  cases update with
  | note key machine change =>
    exact store.run_recordOrEmpty_bind (fun _ => rfl) fun _ => rfl
  | persist name version enabled time =>
    exact store.run_recordOrEmpty_bind (fun _ => rfl) fun _ => rfl

/-- An update that no other call interrupts changes its record. -/
theorem exec_run {store : FileStore} {disk : Disk (StateM σ)} {view : FileView σ}
    (transacts : store.Transacts disk view) {s s' : σ} (hs : view.ready s) (update : Update)
    (h : exec (update.run (store.toStore disk)) s = (.ok ⟨⟩, s')) :
    view.Changes (·.revise update.key update.change) s (.ok ⟨⟩) s' := by
  have hrun : update.run (store.toStore disk) =
      (store.toStore disk).recordOrEmpty update.key >>= fun record =>
        (store.toStore disk).setRecord update.key (update.change record) := by
    cases update <;> rfl
  rw [hrun] at h
  obtain ⟨e, -, hfailed⟩ | ⟨record, s₁, hread, hwrite⟩ := exec_bind_cases h
  · cases hfailed
  · obtain ⟨hkeeps, doc, hdoc, rfl⟩ := transacts.exec_recordOrEmpty hs hread
    obtain ⟨hready, doc', hdoc', hfile⟩ := transacts.exec_update hkeeps.ready hwrite
    obtain rfl := Except.ok.inj (hdoc.symm.trans (hkeeps.document_eq.symm.trans hdoc'))
    exact ⟨hready, doc, hdoc, hfile⟩

end Update

/-! ## Interleavings -/

/-- What is done on a store while others do something. -/
inductive Job where
  | revise (update : Update)
  | register (node : Node)
  | remove (name : String)

namespace Job

/-- The key of the record that a job updates. -/
def key? : Job → Option String
  | .revise update => some update.key
  | _ => none

/-- What a job makes of the nodes. -/
def serve (nodes : List Node) : Job → List Node
  | .revise _ => nodes
  | .register node => nodes.filter (·.name ≠ node.name) ++ [node]
  | .remove name => nodes.filter (·.name ≠ name)

/-- The errors that a job may end with: there may be no node to take out. -/
def Tolerates (e : Error) : Job → Prop
  | .remove _ => e.kind = .nodeNotFound
  | _ => False

end Job

/-- A job and what is left of it. -/
structure Thread (σ : Type) where
  job : Job
  rest : Process σ (Except Error Unit)

/-- A job that has not begun, on a store in a file. -/
def Job.start (store : FileStore) (disk : Disk (StateM σ)) (job : Job) : Thread σ where
  job
  rest := match job with
    | .revise update => (update.run (store.toStore disk).shared).run
    | .register node => (Process.ofCall (store.addNode disk node)).run
    | .remove name => (Process.ofCall (store.removeNode disk name)).run

/-- Threads make their calls one at a time, in any order, and no call fails for a reason that its
job does not tolerate.  The list tells whose calls they were. -/
inductive Interleaving (threads : List (Thread σ)) (s : σ) :
    List Job → List (Thread σ) → σ → Prop
  | start : Interleaving threads s [] threads s
  | call {calls : List Job} {before after : List (Thread σ)} {job : Job} {leave : σ → σ}
      {next : σ → Process σ (Except Error Unit)} {s' : σ}
      (h : Interleaving threads s calls (before ++ ⟨job, .call leave next⟩ :: after) s')
      (htolerates : ∀ e, next s' = .done (.error e) → job.Tolerates e) :
    Interleaving threads s (calls ++ [job]) (before ++ ⟨job, next s'⟩ :: after) (leave s')

/-- Jobs that were done have lost nothing of a document: each record is as its own job alone would
have left it, and the nodes are as the calls have left them one after the other. -/
structure Job.LosesNothing (jobs calls : List Job) (doc doc' : Document) : Prop where
  nodes : doc'.nodes = calls.foldl Job.serve doc.nodes
  updated : ∀ update, .revise update ∈ jobs →
    doc'.record? update.key = some (update.change ((doc.record? update.key).getD .empty))
  others : ∀ key, key ∉ jobs.filterMap Job.key? → doc'.record? key = doc.record? key

/-! ## What one call does -/

namespace Thread

variable {store : FileStore} {disk : Disk (StateM σ)} {view : FileView σ} {doc current : Document}

/-- How far a job has come since a document, as far as the current one shows. -/
inductive Progress (store : FileStore) (disk : Disk (StateM σ)) (doc current : Document) :
    Thread σ → Prop
  | waiting {job : Job}
      (h : ∀ update, job = .revise update → current.record? update.key = doc.record? update.key) :
    Progress store disk doc current (job.start store disk)
  | reading {update : Update} (h : current.record? update.key = doc.record? update.key) :
    Progress store disk doc current ⟨.revise update,
      update.write (store.toStore disk) ((doc.record? update.key).getD .empty)⟩
  | done {job : Job} {result : Except Error Unit}
      (h : ∀ update, job = .revise update → current.record? update.key =
        some (update.change ((doc.record? update.key).getD .empty))) :
    Progress store disk doc current ⟨job, .done result⟩

/-- A job does not see what happens to the records of others. -/
theorem Progress.congr {thread : Thread σ} (h : thread.Progress store disk doc current)
    {current' : Document}
    (hsame : ∀ key, thread.job.key? = some key → current'.record? key = current.record? key) :
    thread.Progress store disk doc current' := by
  cases h with
  | waiting h =>
    refine .waiting fun update heq => (hsame update.key ?_).trans (h update heq)
    rw [heq]
    rfl
  | reading h => exact .reading ((hsame _ rfl).trans h)
  | done h =>
    refine .done fun update heq => (hsame update.key ?_).trans (h update heq)
    rw [heq]
    rfl

/-- What a call of a job leaves: a document that can be loaded, in which the job has gone on and
nothing else has changed. -/
structure Advances (store : FileStore) (disk : Disk (StateM σ)) (view : FileView σ)
    (doc current : Document) (thread : Thread σ) (s' : σ) (current' : Document) : Prop where
  ready : view.ready s'
  loads : view.document s' = .ok current'
  legible : current'.Legible
  nodes : current'.nodes = thread.job.serve current.nodes
  progress : thread.Progress store disk doc current'
  others : ∀ key, thread.job.key? ≠ some key → current'.record? key = current.record? key

section

variable {s s' : σ} {update : Update}

/-- The record of an update is read, or the update has failed. -/
theorem advances_read (transacts : store.Transacts disk view) (hs : view.ready s)
    (hdoc : view.document s = .ok current) (hlegible : current.Legible)
    (hsame : current.record? update.key = doc.record? update.key) {result : Except Error Record}
    (h : exec ((store.toStore disk).record update.key) s = (result, s')) :
    (∃ e, update.resume (store.toStore disk) result = .done (.error e)) ∨
      Advances store disk view doc current
        ⟨.revise update, update.resume (store.toStore disk) result⟩ s' current := by
  have hfound := transacts.load.exec_record hs h
  have hkeeps := hfound.keeps
  have hadvances : ∀ record, record = (doc.record? update.key).getD .empty →
      Advances store disk view doc current
        ⟨.revise update, update.write (store.toStore disk) record⟩ s' current := by
    rintro record rfl
    exact ⟨hkeeps.ready, hkeeps.document_eq.trans hdoc, hlegible, rfl, .reading hsame,
      fun _ _ => rfl⟩
  cases result with
  | ok record =>
    obtain ⟨-, doc', hdoc', hrecord⟩ := hfound
    obtain rfl := Except.ok.inj (hdoc.symm.trans hdoc')
    refine .inr (hadvances record ?_)
    rw [← hsame, hrecord, Option.getD_some]
  | error e =>
    by_cases hkind : e.kind = .recordNotFound
    · obtain ⟨doc', hdoc', hrecord⟩ := hfound.2 hkind
      obtain rfl := Except.ok.inj (hdoc.symm.trans hdoc')
      rw [show update.resume _ (.error e) = update.write _ _ from if_pos hkind]
      refine .inr (hadvances .empty ?_)
      rw [← hsame, hrecord, Option.getD_none]
    · exact .inl ⟨e, if_neg hkind⟩

/-- The record that an update has read is written, changed. -/
theorem advances_write (transacts : store.Transacts disk view) (hs : view.ready s)
    (hdoc : view.document s = .ok current) (hlegible : current.Legible)
    (hsame : current.record? update.key = doc.record? update.key)
    (h : exec ((store.toStore disk).setRecord update.key
      (update.change ((doc.record? update.key).getD .empty))) s = (.ok ⟨⟩, s')) :
    ∃ current', Advances store disk view doc current ⟨.revise update, .done (.ok ⟨⟩)⟩ s'
      current' := by
  have hchanges : view.Changes (·.setRecord update.key
      (update.change ((doc.record? update.key).getD .empty))) s (.ok ⟨⟩) s' :=
    transacts.exec_update hs h
  have hrevise : current.setRecord update.key
      (update.change ((doc.record? update.key).getD .empty)) =
        current.revise update.key update.change := by
    rw [Document.revise, hsame]
  have hlegible' := hlegible.revise update.key update.plain_change
  have hloads := hchanges.document_eq_of_legible hdoc (hrevise ▸ hlegible')
  refine ⟨current.revise update.key update.change, hchanges.1,
    hloads.trans (congrArg _ hrevise), hlegible', rfl, .done fun other heq => ?_, fun key hne => ?_⟩
  · obtain rfl := Job.revise.inj heq
    rw [Document.record?_revise, if_pos rfl, hsame]
  · exact Document.record?_revise.trans (if_neg fun heq => hne (congrArg some heq.symm))

/-- A node is registered. -/
theorem advances_register (transacts : store.Transacts disk view) (hs : view.ready s)
    (hdoc : view.document s = .ok current) (hlegible : current.Legible) {node : Node}
    (h : exec (store.addNode disk node) s = (.ok ⟨⟩, s')) :
    Advances store disk view doc current ⟨.register node, .done (.ok ⟨⟩)⟩ s'
      (current.addNode node) := by
  have hchanges := transacts.exec_addNode hs h
  have hlegible' : (current.addNode node).Legible := hlegible
  exact ⟨hchanges.1, hchanges.document_eq_of_legible hdoc hlegible', hlegible', rfl, .done nofun,
    fun _ _ => rfl⟩

/-- A node is taken out, if it is there. -/
theorem advances_remove (transacts : store.Transacts disk view) (hs : view.ready s)
    (hdoc : view.document s = .ok current) (hlegible : current.Legible) {name : String}
    {result : Except Error Unit} (h : exec (store.removeNode disk name) s = (result, s'))
    (htolerates : ∀ e, result = .error e → (Job.remove name).Tolerates e) :
    ∃ current', Advances store disk view doc current ⟨.remove name, .done result⟩ s' current' := by
  obtain hchanges | ⟨hkeeps, rfl, doc', hdoc', hnode⟩ := transacts.exec_removeNode hs h
  · cases result with
    | ok _ =>
      have hlegible' : (current.dropNode name).Legible := hlegible
      exact ⟨current.dropNode name, hchanges.1, hchanges.document_eq_of_legible hdoc hlegible',
        hlegible', rfl, .done nofun, fun _ _ => rfl⟩
    | error e =>
      -- the job tolerates no error of the store
      have hkind : e.kind = .nodeNotFound := htolerates e rfl
      exact nomatch hchanges.2.symm.trans hkind
  · obtain rfl := Except.ok.inj (hdoc.symm.trans hdoc')
    refine ⟨current, hkeeps.ready, hkeeps.document_eq.trans hdoc, hlegible, ?_, .done nofun,
      fun _ _ => rfl⟩
    have hkept : ∀ node ∈ current.nodes, decide (node.name ≠ name) = true := by
      simpa [Document.hasNode] using hnode
    exact (List.filter_eq_self.2 hkept).symm

end

/-- Whatever a job does next, it has gone on and nothing else has changed. -/
theorem Progress.advances (transacts : store.Transacts disk view) {job : Job} {leave : σ → σ}
    {next : σ → Process σ (Except Error Unit)}
    (h : Progress store disk doc current ⟨job, .call leave next⟩) {s : σ} (hs : view.ready s)
    (hdoc : view.document s = .ok current) (hlegible : current.Legible)
    (htolerates : ∀ e, next s = .done (.error e) → job.Tolerates e) :
    ∃ current', Advances store disk view doc current ⟨job, next s⟩ (leave s) current' := by
  generalize hthread : (⟨job, .call leave next⟩ : Thread σ) = thread at h
  cases h with
  | done h => cases hthread
  | @reading update hsame =>
    cases hthread
    rcases hrun : exec ((store.toStore disk).setRecord update.key
      (update.change ((doc.record? update.key).getD .empty))) s with ⟨e | ⟨⟨⟩⟩, s'⟩
    · exact (htolerates e (congrArg Process.done (congrArg Prod.fst hrun))).elim
    · show ∃ current', Advances store disk view doc current
        ⟨.revise update, .done (exec _ s).1⟩ (exec _ s).2 current'
      rw [hrun]
      exact advances_write transacts hs hdoc hlegible hsame hrun
  | @waiting job₁ hsame =>
    cases job₁ with
    | revise update =>
      have hread := hthread.trans
        (congrArg (Thread.mk (.revise update)) (Update.run_shared _ update))
      cases hread
      rcases hrun : exec ((store.toStore disk).record update.key) s with ⟨result, s'⟩
      dsimp only at htolerates ⊢
      rw [hrun] at htolerates ⊢
      obtain ⟨e, hfailed⟩ | hadvances :=
        advances_read transacts hs hdoc hlegible (hsame update rfl) hrun
      · exact (htolerates e hfailed).elim
      · exact ⟨current, hadvances⟩
    | register node =>
      cases hthread
      rcases hrun : exec (store.addNode disk node) s with ⟨e | ⟨⟨⟩⟩, s'⟩
      · exact (htolerates e (congrArg Process.done (congrArg Prod.fst hrun))).elim
      · show ∃ current', Advances store disk view doc current
          ⟨.register node, .done (exec _ s).1⟩ (exec _ s).2 current'
        rw [hrun]
        exact ⟨_, advances_register transacts hs hdoc hlegible hrun⟩
    | remove name =>
      cases hthread
      rcases hrun : exec (store.removeNode disk name) s with ⟨result, s'⟩
      show ∃ current', Advances store disk view doc current
        ⟨.remove name, .done (exec _ s).1⟩ (exec _ s).2 current'
      rw [hrun]
      refine advances_remove transacts hs hdoc hlegible hrun fun e heq => htolerates e ?_
      rw [← heq]
      exact congrArg Process.done (congrArg Prod.fst hrun)

end Thread

/-! ## What an interleaving does -/

section

variable {store : FileStore} {disk : Disk (StateM σ)} {view : FileView σ} {s s' : σ}
  {jobs calls : List Job} {threads : List (Thread σ)} {doc : Document}

/-- What holds of the threads and of the store while jobs are being done. -/
structure Thread.Invariant (store : FileStore) (disk : Disk (StateM σ)) (view : FileView σ)
    (jobs : List Job) (doc : Document) (calls : List Job) (threads : List (Thread σ)) (s' : σ)
    (current : Document) : Prop where
  ready : view.ready s'
  loads : view.document s' = .ok current
  legible : current.Legible
  jobs_eq : threads.map (·.job) = jobs
  nodes : current.nodes = calls.foldl Job.serve doc.nodes
  progress : ∀ thread ∈ threads, thread.Progress store disk doc current
  others : ∀ key, key ∉ jobs.filterMap Job.key? → current.record? key = doc.record? key

/-- The invariant holds throughout an interleaving. -/
theorem Interleaving.invariant (transacts : store.Transacts disk view) (hs : view.ready s)
    (hdoc : view.document s = .ok doc) (hlegible : doc.Legible)
    (hkeys : (jobs.filterMap Job.key?).Nodup)
    (h : Interleaving (jobs.map (·.start store disk)) s calls threads s') :
    ∃ current, Thread.Invariant store disk view jobs doc calls threads s' current := by
  induction h with
  | start =>
    refine ⟨doc, hs, hdoc, hlegible, ?_, rfl, ?_, fun _ _ => rfl⟩
    · rw [List.map_map]
      exact List.map_id _
    · exact List.forall_mem_map.2 fun job _ => .waiting fun _ _ => rfl
  | @call calls before after job leave next s₁ _ htolerates ih =>
    obtain ⟨current, inv⟩ := ih
    have hprogress := inv.progress _ (List.mem_append_right _ List.mem_cons_self)
    obtain ⟨current', advances⟩ :=
      hprogress.advances transacts inv.ready inv.loads inv.legible htolerates
    -- the other threads update other records
    have hdistinct : (before ++ (⟨job, .call leave next⟩ : Thread σ) :: after).Pairwise
        fun thread other => ∀ key, thread.job.key? = some key →
          ∀ key', other.job.key? = some key' → key ≠ key' := by
      rw [← inv.jobs_eq, List.filterMap_map] at hkeys
      exact List.pairwise_filterMap.1 hkeys
    obtain ⟨-, hafter, hbefore⟩ := List.pairwise_append.1 hdistinct
    have hothers : ∀ thread ∈ before ++ after, ∀ key, thread.job.key? = some key →
        job.key? ≠ some key := by
      intro thread hmem key hkey heq
      rcases List.mem_append.1 hmem with hmem | hmem
      · exact hbefore thread hmem _ List.mem_cons_self key hkey key heq rfl
      · exact (List.pairwise_cons.1 hafter).1 thread hmem key heq key hkey rfl
    refine ⟨current', advances.ready, advances.loads, advances.legible, ?_, ?_, ?_, ?_⟩
    · rw [← inv.jobs_eq, List.map_append, List.map_append, List.map_cons, List.map_cons]
    · rw [List.foldl_append, advances.nodes, inv.nodes]
      rfl
    · have hprogress : ∀ thread ∈ before ++ after, thread.Progress store disk doc current' := by
        intro thread hmem
        have hthread : thread ∈ before ++ ⟨job, .call leave next⟩ :: after := by
          rcases List.mem_append.1 hmem with hmem | hmem
          · exact List.mem_append_left _ hmem
          · exact List.mem_append_right _ (List.mem_cons_of_mem _ hmem)
        exact (inv.progress thread hthread).congr fun key hkey =>
          advances.others key (hothers thread hmem key hkey)
      intro thread hmem
      rcases List.mem_append.1 hmem with hmem | hmem
      · exact hprogress thread (List.mem_append_left _ hmem)
      · rcases List.mem_cons.1 hmem with rfl | hmem
        · exact advances.progress
        · exact hprogress thread (List.mem_append_right _ hmem)
    · intro key hkey
      refine (advances.others key fun heq => hkey ?_).trans (inv.others key hkey)
      have hjob : job ∈ jobs := by
        rw [← inv.jobs_eq]
        exact List.mem_map.2 ⟨_, List.mem_append_right _ List.mem_cons_self, rfl⟩
      exact List.mem_filterMap.2 ⟨job, hjob, heq⟩

/-- Jobs that are done in an interleaving have lost nothing of a document that comes back as it
was. -/
theorem Interleaving.losesNothing (transacts : store.Transacts disk view) (hs : view.ready s)
    (hdoc : view.document s = .ok doc) (hlegible : doc.Legible)
    (hkeys : (jobs.filterMap Job.key?).Nodup)
    (h : Interleaving (jobs.map (·.start store disk)) s calls threads s')
    (hdone : ∀ thread ∈ threads, ∃ result, thread.rest = .done result) :
    ∃ doc', view.document s' = .ok doc' ∧ Job.LosesNothing jobs calls doc doc' := by
  obtain ⟨current, inv⟩ := h.invariant transacts hs hdoc hlegible hkeys
  refine ⟨current, inv.loads, inv.nodes, fun update hmem => ?_, inv.others⟩
  rw [← inv.jobs_eq] at hmem
  obtain ⟨thread, hthread, hjob⟩ := List.mem_map.1 hmem
  obtain ⟨result, hresult⟩ := hdone thread hthread
  have hprogress := inv.progress thread hthread
  cases hprogress with
  | done h => exact h update hjob
  | reading => cases hresult
  | @waiting job =>
    obtain rfl : job = .revise update := hjob
    rw [show (Job.start store disk (.revise update)).rest = _ from Update.run_shared _ update]
      at hresult
    cases hresult

/-- A document that the registration of a node does not change comes back as it was. -/
theorem steady_of_losesNothing (transacts : store.Transacts disk view) (hs : view.ready s)
    (hdoc : view.document s = .ok doc) {node : Node}
    (hadd : exec (store.addNode disk node) s = (.ok ⟨⟩, s'))
    (h : ∀ jobs : List Job, (jobs.filterMap Job.key?).Nodup → ∀ calls threads s',
      Interleaving (jobs.map (·.start store disk)) s calls threads s' →
      (∀ thread ∈ threads, ∃ result, thread.rest = .done result) →
      ∃ doc', view.document s' = .ok doc' ∧ Job.LosesNothing jobs calls doc doc') :
    doc.Steady := by
  obtain ⟨hsound, hfits⟩ := Document.sound_of_ofContent hdoc
  have hrun : Interleaving ([Job.register node].map (·.start store disk)) s [.register node]
      [⟨.register node, .done (exec (store.addNode disk node) s).1⟩]
      (exec (store.addNode disk node) s).2 :=
    @Interleaving.call σ _ s [] [] [] (.register node) _ _ s .start fun e he => by
      rw [hadd] at he
      cases he
  rw [hadd] at hrun
  obtain ⟨doc', hdoc', hkept⟩ := h [.register node] .nil _ _ _ hrun (by simp)
  have hloads : view.document s' = .ok (doc.addNode node).reread :=
    (transacts.exec_addNode hs hadd).document_eq hdoc hsound hfits
  obtain rfl := Except.ok.inj (hloads.symm.trans hdoc')
  refine (hsound.reread_eq_iff).1 (congrArg (Document.mk doc.nodes) (Dict.ext_find? fun key => ?_))
  exact hkept.others key List.not_mem_nil

/-- Updates of records under different keys, and calls about nodes, lose nothing in any interleaving
in which no call fails but for want of a record or a node, just if every double in the document that
they begin with is steady. -/
theorem Job.losesNothing_iff_steady (transacts : store.Transacts disk view) (hs : view.ready s)
    (hdoc : view.document s = .ok doc)
    (hcapable : ∃ node s', exec (store.addNode disk node) s = (.ok ⟨⟩, s')) :
    (∀ jobs : List Job, (jobs.filterMap Job.key?).Nodup → ∀ calls threads s',
      Interleaving (jobs.map (·.start store disk)) s calls threads s' →
      (∀ thread ∈ threads, ∃ result, thread.rest = .done result) →
      ∃ doc', view.document s' = .ok doc' ∧ Job.LosesNothing jobs calls doc doc') ↔
    doc.Steady := by
  constructor
  · obtain ⟨node, s', hadd⟩ := hcapable
    exact steady_of_losesNothing transacts hs hdoc hadd
  · intro hsteady jobs hkeys calls threads s' hrun hdone
    have hlegible : doc.Legible := Document.legible_of_ofContent hdoc hsteady
    exact hrun.losesNothing transacts hs hdoc hlegible hkeys hdone

end

/-! ## A node that is registered in the middle of an update -/

namespace Membership.FileStore

section

variable {store : FileStore} {disk : Disk (StateM σ)} {ready prepared : σ → Prop}
  {file temporary : σ → Option Content} {s : σ} {doc : Document}

/-- On a writable path a node may be registered between the two calls of an update, which then
writes what it has read before. -/
theorem Writable.interleaving (writable : store.Writable disk ready prepared file temporary)
    (hs : ready s) (hdoc : Document.ofContent (file s) = .ok doc) (update : Update) (node : Node) :
    ∃ s', Interleaving ([Job.revise update, .register node].map (·.start store disk)) s
        [.revise update, .register node, .revise update]
        [⟨.revise update, .done (.ok ⟨⟩)⟩, ⟨.register node, .done (.ok ⟨⟩)⟩] s' ∧
      Document.ofContent (file s') = .ok ((doc.addNode node).reread.setRecord update.key
        (update.change ((doc.record? update.key).getD .empty))).reread := by
  obtain ⟨hsound, hfits⟩ := Document.sound_of_ofContent hdoc
  let record := (doc.record? update.key).getD .empty
  -- the record is read
  have hread := writable.exec_record hs update.key
  rw [hdoc] at hread
  have hresume : update.resume (store.toStore disk)
      (exec ((store.toStore disk).record update.key) s).1 =
        update.write (store.toStore disk) record := by
    rw [hread]
    show _ = update.write _ ((doc.record? update.key).getD .empty)
    simp only [Except.bind]
    cases doc.record? update.key <;> rfl
  have hstart : Interleaving ([Job.revise update, .register node].map (·.start store disk)) s []
      ([] ++ ⟨.revise update, .call (fun s => (exec ((store.toStore disk).record update.key) s).2)
        fun s => update.resume (store.toStore disk)
          (exec ((store.toStore disk).record update.key) s).1⟩ ::
        [(Job.register node).start store disk]) s := by
    rw [← Update.run_shared]
    exact .start
  have hbegun := hstart.call fun e he => by
    rw [hresume] at he
    cases he
  rw [hresume, hread] at hbegun
  -- the node is registered
  obtain ⟨s₁, hadd, hs₁, hfile₁⟩ := writable.exec_update hs hdoc (·.addNode node)
  have hdoc₁ : Document.ofContent (file s₁) = .ok (doc.addNode node).reread := by
    rw [hfile₁]
    exact Document.ofContent_text_reread hsound hfits
  have hadded := @Interleaving.call σ _ s _ [_] [] (.register node)
    (fun s => (exec (store.addNode disk node) s).2)
    (fun s => .done (exec (store.addNode disk node) s).1) s hbegun fun e he => by
      rw [show exec (store.addNode disk node) s = _ from hadd] at he
      cases he
  rw [show exec (store.addNode disk node) s = _ from hadd] at hadded
  -- the record is written
  obtain ⟨s₂, hwrite, hs₂, hfile₂⟩ :=
    writable.exec_update hs₁ hdoc₁ (·.setRecord update.key (update.change record))
  have hwritten := @Interleaving.call σ _ s _ [] [_] (.revise update)
    (fun s => (exec ((store.toStore disk).setRecord update.key (update.change record)) s).2)
    (fun s => .done
      (exec ((store.toStore disk).setRecord update.key (update.change record)) s).1) s₁ hadded
    fun e he => by
      rw [show exec ((store.toStore disk).setRecord _ _) s₁ = _ from hwrite] at he
      cases he
  rw [show exec ((store.toStore disk).setRecord _ _) s₁ = _ from hwrite] at hwritten
  refine ⟨s₂, hwritten, ?_⟩
  have hrecord : (doc.revise update.key update.change).record? update.key =
      some (update.change record) := Document.record?_revise.trans (if_pos rfl)
  have hplain := update.plain_change
  have hsound₁ : (doc.addNode node).reread.Sound := Document.Sound.sound_reread hsound
  have hfits₁ : (doc.addNode node).reread.Fits := Document.Sound.fits_reread hsound hfits
  rw [hfile₂]
  exact Document.ofContent_text_reread
    (hsound₁.setRecord _ (hsound.revise update.key hplain _ _ hrecord))
    (hfits₁.setRecord _ (hfits.revise update.key hplain _ _ hrecord))

end

/-- What the run from an empty tree leaves. -/
theorem losesNothing_inRoot :
    let update : Update := .note "placement" "1" .join
    let node : Node := ⟨"node-1", "1"⟩
    ∃ threads tree doc', Interleaving ([Job.revise update, .register node].map
        (·.start inRoot treeDisk)) FileTree.empty
        [.revise update, .register node, .revise update] threads tree ∧
      Document.ofContent (rootFile? "cluster.json" tree) = .ok doc' ∧ doc'.nodes = [node] ∧
      doc'.record? "placement" =
        some (.ofList [(Placement.machineIdsKey, .ofStrings ["1"])]) := by
  intro update node
  have hready : RootIsReady FileTree.empty := by
    intro name _
    nofun
  have hdoc : Document.ofContent (rootFile? "cluster.json" FileTree.empty) = .ok .empty := rfl
  obtain ⟨tree, hrun, -⟩ := writable_treeDisk.interleaving hready hdoc update node
  obtain ⟨tree', hadd, -⟩ := writable_treeDisk.exec_update hready hdoc (·.addNode node)
  have hsteady : Document.Steady .empty := nofun
  obtain ⟨doc', hdoc', hkept⟩ := (Job.losesNothing_iff_steady writable_treeDisk.transacts hready
    hdoc ⟨node, tree', hadd⟩).2 hsteady [.revise update, .register node]
    (List.nodup_singleton _) _ _ tree hrun (by simp)
  exact ⟨_, tree, doc', hrun, hdoc', hkept.nodes, hkept.updated update List.mem_cons_self⟩

/-- A document that was edited by hand, with a number that is written in a form that is read as
another number. -/
def driftingText : String :=
  "\x7b\"nodes\":[],\"config\":\x7b\"other\":\x7b\"x\":7.12e183\x7d\x7d\x7d"

/-- The run from this document changes the record under a key that nobody updates. -/
theorem not_losesNothing_drifting :
    let update : Update := .note "placement" "1" .join
    let node : Node := ⟨"node-1", "1"⟩
    let jobs := [Job.revise update, .register node]
    let calls := [Job.revise update, .register node, .revise update]
    ∃ doc threads tree, Document.ofContent (some (.text driftingText)) = .ok doc ∧
      Interleaving (jobs.map (·.start inRoot treeDisk))
        ⟨[(["cluster.json"], .file (.text driftingText))], []⟩ calls threads tree ∧
      (∀ thread ∈ threads, ∃ result, thread.rest = .done result) ∧
      ¬ ∃ doc', Document.ofContent (rootFile? "cluster.json" tree) = .ok doc' ∧
        Job.LosesNothing jobs calls doc doc' := by
  intro update node jobs calls
  let doc := (Document.ofText? driftingText).getD .empty
  have hparsed : Document.ofText? driftingText = some doc := by
    have hsome : (Document.ofText? driftingText).isSome := by decide +kernel
    obtain ⟨parsed, hparsed⟩ := Option.isSome_iff_exists.1 hsome
    show _ = some ((Document.ofText? driftingText).getD .empty)
    rw [hparsed, Option.getD_some]
  have hdoc : Document.ofContent (some (.text driftingText)) = .ok doc := by
    rw [Document.ofContent, hparsed]
  obtain ⟨tree, hrun, hlast⟩ := writable_treeDisk.interleaving (.file _) hdoc update node
  refine ⟨doc, _, tree, hdoc, hrun, by simp, ?_⟩
  rintro ⟨doc', hdoc', hkept⟩
  obtain rfl := Except.ok.inj (hlast.symm.trans hdoc')
  -- the record has come back from the file twice
  have hother := hkept.others "other" (by decide)
  rw [Document.record?_reread, Document.record?_setRecord, if_neg (by decide),
    Document.record?_reread, Option.map_map] at hother
  have hform := congrArg (Option.map fun record => (Json.ofRecord record).compact) hother
  exact absurd hform (by decide +kernel)

end Membership.FileStore

end Converge
